import Kron.Alpha.Fencing

/-
  Replication between the nodes of the quorum server.

  A leader posts a command to its peers one after the other,
  and logs it when enough of them have answered. A peer logs
  the command, takes its lock later, and answers. Between all
  of these steps any node takes any other step, a connection
  may break, and a process may be started again. A leader
  that finds its lock taken logs at once and posts nothing:
  that is a section of its own.

  Key definitions include:
    * `Kron.Alpha.Replication`
    * `Kron.Alpha.Handler`
    * `Kron.Alpha.System`
    * `Kron.Alpha.System.step`
    * `Kron.Alpha.Node.Holds`

  Key theorems include:
    * `Kron.Alpha.Node.aof_prefix_of_step`
    * `Kron.Alpha.consistent_step`
    * `Kron.Alpha.replicated_command_outlives_minority`
-/

------------------------------------------------------------
-- Systems
------------------------------------------------------------

namespace Kron

namespace Alpha

/- How far a peer is with a posted command. -/
inductive Phase where
| appended
| answered (ok : Bool)
deriving DecidableEq, Repr

/- A request to apply a command, at the peer. -/
structure Handler where
  addr : String
  command : RaftCommand
  phase : Phase
deriving DecidableEq, Repr

/-
  A call of a leader that replicates its command. `todo` are
  the peers that have not answered, and `contact` is the
  request to the first of them, once it has arrived. The
  result is whether the command was logged.
-/
structure Replication where
  addr : String
  call : Submission
  command : RaftCommand
  peers : List NodeInfo
  todo : List NodeInfo
  acks : Nat
  contact : Option Nat
  result : Option Bool
deriving DecidableEq, Repr

/- The addresses of the leader and its peers. -/
def Replication.members
    (replication : Replication) : List String :=
  replication.addr :: replication.peers.map NodeInfo.httpAddr

/- How many nodes have to have the command. -/
def Replication.majority
    (replication : Replication) : Nat :=
  (replication.peers.length + 1) / 2 + 1

/- A request at a process that ends is never answered. -/
def Handler.cut
    (addr : String)
    (handler : Handler) : Handler :=
  if handler.addr = addr ∧ handler.phase = .appended then
    { handler with phase := .answered false }
  else
    handler

/- A call in a process that ends has no result. -/
def Replication.cut
    (addr : String)
    (replication : Replication) : Replication :=
  if replication.addr = addr ∧ replication.result = none then
    { replication with result := some false }
  else
    replication

/- The nodes by their HTTP address, and what goes on. -/
structure System where
  nodes : BTreeMap String Node
  handlers : List Handler
  replications : List Replication

/- One step of the system. -/
inductive Move where
| alone (addr : String) (label : Section)
| begin (addr : String) (call : Submission)
| deliver (r : Nat) (io : AppendIo)
| handle (h : Nat) (clock : Readings)
| answer (r : Nat)
| giveUp (r : Nat)
| finish (r : Nat) (io : AppendIo)
| restart (addr : String) (args : OpenArgs)
    (clock : Nat → Readings)

namespace System

variable (cal : Calendar)
variable (codec : JsonCodec CommandEntry)
variable (system : System)

def setNode
    (addr : String)
    (node : Node) : System :=
  { system with nodes := system.nodes.insert addr node }

def setReplication
    (r : Nat)
    (replication : Replication) : System :=
  { system with
    replications := system.replications.set r replication }

def setHandler
    (h : Nat)
    (handler : Handler) : System :=
  { system with handlers := system.handlers.set h handler }

/- A running replication. -/
def running?
    (r : Nat) : Option Replication :=
  (system.replications[r]?).filter fun replication =>
    replication.result.isNone

/- The next peer, after an answer or none. -/
def advance
    (r : Nat)
    (replication : Replication)
    (acks : Nat) : System :=
  system.setReplication r
    { replication with
      todo := replication.todo.tail
      acks := acks
      contact := none }

/- A leader starts to replicate the command of a call. -/
def begin
    (addr : String)
    (call : Submission) : Option System :=
  match system.nodes[addr]?, call.command cal with
  | some node, some (.ok command) =>
      if call.isReplicated && node.state.leader &&
          !node.poisoned then
        some
          { system with
            replications :=
              system.replications ++
                [{ addr := addr
                   call := call
                   command := command
                   peers := node.state.config.peers
                   todo := node.state.config.peers
                   acks := 1
                   contact := none
                   result := none }] }
      else
        none
  | _, _ => none

/- A command reaches the next peer, which logs it. -/
def deliver
    (r : Nat)
    (io : AppendIo) : Option System :=
  match system.running? r with
  | none => none
  | some replication =>
      match replication.contact, replication.todo with
      | none, peer :: _ =>
          match system.nodes[peer.httpAddr]? with
          | none => none
          | some node =>
              let system :=
                system.setNode peer.httpAddr
                  (node.log codec replication.command io)
              let phase : Phase :=
                match io.failure with
                | none => .appended
                | some _ => .answered false
              some
                ({ system with
                    handlers :=
                      system.handlers ++
                        [{ addr := peer.httpAddr
                           command := replication.command
                           phase := phase }]
                    : System }.setReplication r
                  { replication with
                    contact :=
                      some system.handlers.length })
      | _, _ => none

/- A peer applies a command that it has logged. -/
def handle
    (h : Nat)
    (clock : Readings) : Option System :=
  match system.handlers[h]? with
  | none => none
  | some handler =>
      match handler.phase, system.nodes[handler.addr]? with
      | .appended, some node =>
          let outcome :=
            if node.poisoned then
              (node, none)
            else
              node.settle
                (applyCommand cal node.state handler.command
                  clock)
          some
            ((system.setNode handler.addr outcome.1).setHandler
              h
              { handler with
                phase := .answered
                  (match outcome.2 with
                  | some (.ok ()) => true
                  | _ => false) })
      | _, _ => none

/- The leader reads the answer of the peer. -/
def answer
    (r : Nat) : Option System :=
  match system.running? r with
  | none => none
  | some replication =>
      match replication.contact.bind fun h =>
          system.handlers[h]? with
      | some handler =>
          match handler.phase with
          | .answered true =>
              some
                (system.advance r replication
                  (replication.acks + 1))
          | .answered false =>
              some
                (system.advance r replication
                  replication.acks)
          | .appended => none
      | none => none

/- The connection to the next peer fails or breaks. -/
def giveUp
    (r : Nat) : Option System :=
  match system.running? r with
  | none => none
  | some replication =>
      match replication.todo with
      | [] => none
      | _ :: _ =>
          some
            (system.advance r replication replication.acks)

/- After the last peer, the command is logged or refused. -/
def finish
    (r : Nat)
    (io : AppendIo) : Option System :=
  match system.running? r with
  | none => none
  | some replication =>
      match replication.todo,
          system.nodes[replication.addr]? with
      | [], some node =>
          if replication.acks < replication.majority then
            some
              (system.setReplication r
                { replication with result := some false })
          else
            match node.appendCommand codec
                replication.command io with
            | (node, .error _) =>
                some
                  ((system.setNode replication.addr
                    node).setReplication r
                    { replication with result := some false })
            | (node, .ok ()) =>
                some
                  ((system.setNode replication.addr
                    { node with
                      unapplied :=
                        node.unapplied ++
                          [(replication.call,
                            replication.command)] }).setReplication
                    r
                    { replication with result := some true })
      | _, _ => none

/- A process that ends takes its requests and calls along. -/
def restart
    (addr : String)
    (args : OpenArgs)
    (clock : Nat → Readings) : Option System :=
  match system.nodes[addr]? with
  | none => none
  | some node =>
      (node.reopen cal codec args clock).map fun node =>
        { nodes := system.nodes.insert addr node
          handlers := system.handlers.map (Handler.cut addr)
          replications :=
            system.replications.map (Replication.cut addr) }

/- A node takes a section that needs no other node. -/
def takeSection
    (addr : String)
    (label : Section) : Option System :=
  if label.isReopen then
    none
  else
    match system.nodes[addr]? with
    | none => none
    | some node =>
        (node.step cal codec label).map fun node =>
          system.setNode addr node

def step : Move → Option System
| .alone addr label =>
    system.takeSection cal codec addr label
| .begin addr call => system.begin cal addr call
| .deliver r io => system.deliver codec r io
| .handle h clock => system.handle cal h clock
| .answer r => system.answer r
| .giveUp r => system.giveUp r
| .finish r io => system.finish codec r io
| .restart addr args clock =>
    system.restart cal codec addr args clock

/- Nodes on which nothing goes on yet. -/
def init
    (nodes : BTreeMap String Node) : System where
  nodes := nodes
  handlers := []
  replications := []

end System

end Alpha

end Kron

------------------------------------------------------------
-- Logs Only Grow
------------------------------------------------------------

namespace Kron

namespace Alpha

variable {cal : Calendar}
variable {codec : JsonCodec CommandEntry}

namespace Node

/- The log has a whole line with the command. -/
def Holds
    (codec : JsonCodec CommandEntry)
    (node : Node)
    (command : RaftCommand) : Prop :=
  ∃ before entry after,
    entry.command = command ∧
      node.aof =
        before ++ encodeEntry codec entry ++ after

variable {node node' : Node}

theorem Holds.of_prefix
    {command : RaftCommand}
    (hHolds : node.Holds codec command)
    (hPrefix : node.aof <+: node'.aof) :
    node'.Holds codec command := by
  rcases hHolds with ⟨before, entry, after, hEntry, hAof⟩
  rcases hPrefix with ⟨rest, hRest⟩
  refine ⟨before, entry, after ++ rest, hEntry, ?_⟩
  rw [← hRest, hAof, List.append_assoc]

/- An append that succeeds writes a whole line. -/
theorem holds_log
    {command : RaftCommand}
    {io : AppendIo}
    (hFailure : io.failure = none) :
    (node.log codec command io).Holds codec command := by
  refine ⟨node.aof, entryOf command io, [], rfl, ?_⟩
  unfold log appended
  rw [hFailure, List.append_nil]

theorem aof_prefix_log
    (command : RaftCommand)
    (io : AppendIo) :
    node.aof <+: (node.log codec command io).aof :=
  ⟨_, rfl⟩

theorem aof_prefix_settle
    (result : Option (Except KronError ClusterState)) :
    node.aof <+: (node.settle result).1.aof := by
  rw [(settle_eq node result).1]

theorem aof_prefix_of_lockedStep
    {label : Section}
    (hStep :
      node.lockedStep cal codec label = some node') :
    node.aof <+: node'.aof := by
  cases label with
  | submit call io => cases hStep
  | reopen args clock => cases hStep
  | apply index clock =>
      simp only [lockedStep, applyNext] at hStep
      split at hStep
      · cases hStep
      · rename_i call command _
        cases hStep
        rw [(settle_eq _ _).1]
  | heartbeat workerId instant =>
      have hCase := node.heartbeatWorker_cases workerId instant
      rw [Option.some.inj hStep] at hCase
      cases hCase with
      | ignored => exact List.prefix_refl _
      | renewed worker => exact aof_prefix_settle _
  | claim workerId tasks io now later =>
      simp only [lockedStep] at hStep
      split at hStep
      · have hCase :=
          node.claimPendingFor_cases codec workerId tasks io
            now later
        rw [Option.some.inj hStep] at hCase
        cases hCase with
        | idle => exact List.prefix_refl _
        | panicked => exact List.prefix_refl _
        | failed run logged failure => exact aof_prefix_log _ io
        | lost run logged => exact aof_prefix_log _ io
        | gave run logged held => exact aof_prefix_log _ io
      · cases hStep
        exact List.prefix_refl _
  | complete runId request io completedAt now =>
      have hCase :=
        node.completeRun_cases cal codec runId request io
          completedAt now
      rw [Option.some.inj hStep] at hCase
      cases hCase with
      | refused => exact List.prefix_refl _
      | failed active failure => exact aof_prefix_log _ io
      | ended active =>
          exact
            (aof_prefix_log _ io).trans (aof_prefix_settle _)
  | fail runId request io failedAt =>
      have hCase :=
        node.failRun_cases codec runId request io failedAt
      rw [Option.some.inj hStep] at hCase
      cases hCase with
      | refused => exact List.prefix_refl _
      | failed active failure => exact aof_prefix_log _ io
      | ended active => exact aof_prefix_log _ io
  | enqueue now order =>
      rcases Option.map_eq_some_iff.mp hStep with
        ⟨state, _, rfl⟩
      exact List.prefix_refl _
  | expire clock lost expired =>
      rcases Option.map_eq_some_iff.mp hStep with
        ⟨state, _, rfl⟩
      exact List.prefix_refl _
  | shutdown =>
      cases hStep
      exact List.prefix_refl _

/- A restart reads the log and leaves it. -/
theorem aof_of_reopen
    {args : OpenArgs}
    {clock : Nat → Readings}
    (hReopen :
      node.reopen cal codec args clock = some node') :
    node'.aof = node.aof := by
  unfold reopen at hReopen
  split at hReopen
  · rename_i state aof hOpen
    cases hReopen
    rcases Option.map_eq_some_iff.mp hOpen with
      ⟨result, _, hEq⟩
    cases result with
    | error e => cases hEq
    | ok opened =>
        cases hEq
        rfl
  · cases hReopen

/- No step takes anything from the log. -/
theorem aof_prefix_of_step
    {label : Section}
    (hStep : node.step cal codec label = some node') :
    node.aof <+: node'.aof := by
  rcases step_cases hStep with
    ⟨call, io, rfl, rfl⟩ | ⟨args, clock, rfl, hReopen⟩ |
      ⟨_, rfl⟩ | ⟨_, hLocked⟩
  · have hCase := node.submit_cases cal codec call io
    generalize node.submit cal codec call io = next at hCase ⊢
    cases hCase with
    | refused => exact List.prefix_refl _
    | failed command failure => exact aof_prefix_log command io
    | appended command => exact aof_prefix_log command io
  · rw [aof_of_reopen hReopen]
  · exact List.prefix_refl _
  · exact aof_prefix_of_lockedStep hLocked

end Node

end Alpha

end Kron

------------------------------------------------------------
-- What Answers Mean
------------------------------------------------------------

namespace Kron

namespace Alpha

variable {cal : Calendar}
variable {codec : JsonCodec CommandEntry}
variable {system system' : System}

/- The node at an address has the command in its log. -/
def HoldsAt
    (codec : JsonCodec CommandEntry)
    (system : System)
    (addr : String)
    (command : RaftCommand) : Prop :=
  ∃ node,
    system.nodes[addr]? = some node ∧
      node.Holds codec command

/- Nodes keep their logs, and requests stay what they are. -/
structure Grows
    (system system' : System) : Prop where
  nodes :
    ∀ (addr : String) (node : Node),
      system.nodes[addr]? = some node →
        ∃ node',
          system'.nodes[addr]? = some node' ∧
            node.aof <+: node'.aof
  handlers :
    ∀ (h : Nat) (handler : Handler),
      system.handlers[h]? = some handler →
        ∃ handler',
          system'.handlers[h]? = some handler' ∧
            handler'.addr = handler.addr ∧
              handler'.command = handler.command

/-
  What is known of a replication: each ack stands for a peer
  with the command in its log, and the request that is waited
  for went to the next peer.
-/
structure Replicated
    (codec : JsonCodec CommandEntry)
    (system : System)
    (replication : Replication) : Prop where
  acked :
    ∃ passed acked : List NodeInfo,
      replication.peers = passed ++ replication.todo ∧
        acked.Sublist passed ∧
          replication.acks = acked.length + 1 ∧
            ∀ peer ∈ acked,
              HoldsAt codec system peer.httpAddr
                replication.command
  contact :
    ∀ h, replication.contact = some h →
      ∃ handler,
        system.handlers[h]? = some handler ∧
          handler.command = replication.command ∧
            (replication.todo.head?).map NodeInfo.httpAddr =
              some handler.addr
  result :
    replication.result = some true →
      replication.todo = [] ∧
        replication.majority ≤ replication.acks ∧
          HoldsAt codec system replication.addr
            replication.command

/- What is known of a request: unless refused, it is logged. -/
def Logged
    (codec : JsonCodec CommandEntry)
    (system : System)
    (handler : Handler) : Prop :=
  handler.phase ≠ .answered false →
    HoldsAt codec system handler.addr handler.command

/- What is known of a whole system. -/
structure Consistent
    (codec : JsonCodec CommandEntry)
    (system : System) : Prop where
  handlers :
    ∀ handler ∈ system.handlers,
      Logged codec system handler
  replications :
    ∀ replication ∈ system.replications,
      Replicated codec system replication

theorem HoldsAt.mono
    {addr : String}
    {command : RaftCommand}
    (hHolds : HoldsAt codec system addr command)
    (hGrows : Grows system system') :
    HoldsAt codec system' addr command := by
  rcases hHolds with ⟨node, hGet, hNode⟩
  rcases hGrows.nodes addr node hGet with
    ⟨node', hGet', hPrefix⟩
  exact ⟨node', hGet', hNode.of_prefix hPrefix⟩

theorem Logged.mono
    {handler : Handler}
    (hLogged : Logged codec system handler)
    (hGrows : Grows system system') :
    Logged codec system' handler :=
  fun hPhase => (hLogged hPhase).mono hGrows

theorem Replicated.mono
    {replication : Replication}
    (hRep : Replicated codec system replication)
    (hGrows : Grows system system') :
    Replicated codec system' replication where
  acked := by
    rcases hRep.acked with
      ⟨passed, acked, hPeers, hSub, hAcks, hHolds⟩
    exact
      ⟨passed, acked, hPeers, hSub, hAcks, fun peer hMem =>
        (hHolds peer hMem).mono hGrows⟩
  contact := by
    intro h hContact
    rcases hRep.contact h hContact with
      ⟨handler, hGet, hCommand, hAddr⟩
    rcases hGrows.handlers h handler hGet with
      ⟨handler', hGet', hAddr', hCommand'⟩
    exact
      ⟨handler', hGet', hCommand'.trans hCommand, by
        rw [hAddr', hAddr]⟩
  result := fun hResult =>
    ⟨(hRep.result hResult).1, (hRep.result hResult).2.1,
      (hRep.result hResult).2.2.mono hGrows⟩

theorem grows_refl
    (system : System) :
    Grows system system where
  nodes := fun _ node hGet =>
    ⟨node, hGet, List.prefix_refl _⟩
  handlers := fun _ handler hGet =>
    ⟨handler, hGet, rfl, rfl⟩

/- A node whose log grows. -/
theorem grows_setNode
    {addr : String}
    {node node' : Node}
    (hGet : system.nodes[addr]? = some node)
    (hPrefix : node.aof <+: node'.aof) :
    Grows system (system.setNode addr node') where
  nodes := by
    intro other old hOld
    unfold System.setNode
    by_cases hEq : addr = other
    · subst hEq
      rw [hGet] at hOld
      cases hOld
      exact
        ⟨node', by simp, hPrefix⟩
    · exact
        ⟨old, by rw [BTreeMap.get_insert_ne _ _ hEq, hOld],
          List.prefix_refl _⟩
  handlers := fun _ handler hHandler =>
    ⟨handler, hHandler, rfl, rfl⟩

/- A system in which only replications differ grows too. -/
theorem Grows.congr
    {after : System}
    (hGrows : Grows system system')
    (hNodes : after.nodes = system'.nodes)
    (hHandlers : after.handlers = system'.handlers) :
    Grows system after where
  nodes := by
    rw [hNodes]
    exact hGrows.nodes
  handlers := by
    rw [hHandlers]
    exact hGrows.handlers

/-
  A system that grows stays consistent when whatever is new
  in it is known.
-/
theorem Consistent.grow
    (hCons : Consistent codec system)
    (hGrows : Grows system system')
    (hHandlers :
      ∀ handler ∈ system'.handlers,
        handler ∈ system.handlers ∨
          Logged codec system' handler)
    (hReps :
      ∀ replication ∈ system'.replications,
        replication ∈ system.replications ∨
          Replicated codec system' replication) :
    Consistent codec system' where
  handlers := by
    intro handler hMem
    rcases hHandlers handler hMem with hOld | hNew
    · exact (hCons.handlers handler hOld).mono hGrows
    · exact hNew
  replications := by
    intro replication hMem
    rcases hReps replication hMem with hOld | hNew
    · exact (hCons.replications replication hOld).mono hGrows
    · exact hNew

/- One replication is replaced by another that is known. -/
theorem Consistent.setReplication
    {r : Nat}
    {replication : Replication}
    (hCons : Consistent codec system)
    (hNew : Replicated codec system replication) :
    Consistent codec
      (system.setReplication r replication) := by
  have hGrows :
      Grows system (system.setReplication r replication) :=
    (grows_refl system).congr rfl rfl
  refine hCons.grow hGrows (fun _ hMem => .inl hMem) ?_
  intro other hMem
  rcases List.mem_or_eq_of_mem_set hMem with hOld | rfl
  · exact .inl hOld
  · exact .inr (hNew.mono hGrows)

/- A node logs more. -/
theorem Consistent.setNode
    {addr : String}
    {node : Node}
    (hCons : Consistent codec system)
    (node' : Node)
    (hGet : system.nodes[addr]? = some node)
    (hPrefix : node.aof <+: node'.aof) :
    Consistent codec (system.setNode addr node') :=
  hCons.grow (grows_setNode hGet hPrefix)
    (fun _ hMem => .inl hMem) (fun _ hMem => .inl hMem)

end Alpha

end Kron

------------------------------------------------------------
-- Moves
------------------------------------------------------------

namespace Kron

namespace Alpha

variable {cal : Calendar}
variable {codec : JsonCodec CommandEntry}
variable {system system' : System}

theorem running?_eq_some
    {r : Nat}
    {replication : Replication}
    (hRunning : system.running? r = some replication) :
    replication ∈ system.replications ∧
      replication.result = none := by
  rcases Option.filter_eq_some_iff.mp hRunning with
    ⟨hGet, hNone⟩
  exact
    ⟨List.mem_of_getElem? hGet,
      Option.isNone_iff_eq_none.mp hNone⟩

theorem consistent_takeSection
    {addr : String}
    {label : Section}
    (hCons : Consistent codec system)
    (hStep :
      system.takeSection cal codec addr label =
        some system') :
    Consistent codec system' := by
  unfold System.takeSection at hStep
  split at hStep
  · cases hStep
  · split at hStep
    · cases hStep
    · rename_i node hGet
      rcases Option.map_eq_some_iff.mp hStep with
        ⟨node', hNode, rfl⟩
      exact
        hCons.setNode _ hGet (Node.aof_prefix_of_step hNode)

theorem consistent_begin
    {addr : String}
    {call : Submission}
    (hCons : Consistent codec system)
    (hStep : system.begin cal addr call = some system') :
    Consistent codec system' := by
  unfold System.begin at hStep
  split at hStep
  · split at hStep
    · cases hStep
      refine
        hCons.grow ((grows_refl system).congr rfl rfl)
          (fun _ hMem => .inl hMem) ?_
      intro replication hMem
      rcases List.mem_append.mp hMem with hOld | hNew
      · exact .inl hOld
      · cases List.mem_singleton.mp hNew
        exact
          .inr
            { acked :=
                ⟨[], [], rfl, List.Sublist.refl _, rfl,
                  (fun _ hNone => by cases hNone)⟩
              contact := (fun _ hContact => by cases hContact)
              result := (fun hResult => by cases hResult) }
    · cases hStep
  · cases hStep

/- A request that is sent to a node reaches its log. -/
theorem Consistent.addHandler
    (handler : Handler)
    (hCons : Consistent codec system)
    (hLogged : Logged codec system handler) :
    Consistent codec
      { system with
        handlers := system.handlers ++ [handler] } := by
  have hGrows :
      Grows system
        { system with
          handlers := system.handlers ++ [handler] } :=
    { nodes := fun _ node hGet =>
        ⟨node, hGet, List.prefix_refl _⟩
      handlers := fun h other hGet =>
        ⟨other,
          (List.getElem?_append_left
            (List.getElem?_eq_some_iff.mp hGet).1).trans hGet,
          rfl, rfl⟩ }
  refine hCons.grow hGrows ?_ (fun _ hMem => .inl hMem)
  intro other hMem
  rcases List.mem_append.mp hMem with hOld | hNew
  · exact .inl hOld
  · cases List.mem_singleton.mp hNew
    exact .inr (hLogged.mono hGrows)

theorem holdsAt_setNode
    {addr : String}
    {node : Node}
    {command : RaftCommand}
    (hHolds : node.Holds codec command) :
    HoldsAt codec (system.setNode addr node) addr command := by
  refine ⟨node, ?_, hHolds⟩
  unfold System.setNode
  simp

/-
  A peer that was sent the command either has it in its log
  or answers that it refused it.
-/
theorem consistent_deliver
    {r : Nat}
    {io : AppendIo}
    (hCons : Consistent codec system)
    (hStep : system.deliver codec r io = some system') :
    Consistent codec system' := by
  unfold System.deliver at hStep
  split at hStep
  · cases hStep
  · rename_i replication hRunning
    rcases running?_eq_some hRunning with ⟨hMem, hNone⟩
    split at hStep
    · rename_i peer todo hContact hTodo
      split at hStep
      · cases hStep
      · rename_i node hGet
        cases hStep
        have hLog :
            node.aof <+:
              (node.log codec replication.command io).aof :=
          Node.aof_prefix_log replication.command io
        have hNode := hCons.setNode _ hGet hLog
        have hSent := hNode.addHandler
          { addr := peer.httpAddr
            command := replication.command
            phase :=
              match io.failure with
              | none => .appended
              | some _ => .answered false }
          (by
            intro hPhase
            cases hFailure : io.failure with
            | none =>
                exact
                  holdsAt_setNode (Node.holds_log hFailure)
            | some failure =>
                rw [hFailure] at hPhase
                exact absurd rfl hPhase)
        have hRep := hSent.replications replication hMem
        refine hSent.setReplication ?_
        refine
          { acked := hRep.acked
            contact := ?_
            result := hRep.result }
        intro h hEq
        cases hEq
        refine ⟨_, List.getElem?_concat_length, rfl, ?_⟩
        rw [hTodo]
        rfl
    · cases hStep

/- A request that is answered stays where it went. -/
theorem Consistent.setHandler
    {h : Nat}
    {handler handler' : Handler}
    (hCons : Consistent codec system)
    (hGet : system.handlers[h]? = some handler)
    (hAddr : handler'.addr = handler.addr)
    (hCommand : handler'.command = handler.command)
    (hLogged : Logged codec system handler') :
    Consistent codec (system.setHandler h handler') := by
  have hGrows :
      Grows system (system.setHandler h handler') :=
    { nodes := fun _ node hGet =>
        ⟨node, hGet, List.prefix_refl _⟩
      handlers := by
        intro i other hOther
        unfold System.setHandler
        by_cases hEq : h = i
        · subst hEq
          rw [hGet] at hOther
          cases hOther
          refine ⟨handler', ?_, hAddr, hCommand⟩
          exact
            List.getElem?_set_self
              (List.getElem?_eq_some_iff.mp hGet).1
        · refine ⟨other, ?_, rfl, rfl⟩
          rw [List.getElem?_set_ne hEq, hOther] }
  refine hCons.grow hGrows ?_ (fun _ hMem => .inl hMem)
  intro other hMem
  rcases List.mem_or_eq_of_mem_set hMem with hOld | rfl
  · exact .inl hOld
  · exact .inr (hLogged.mono hGrows)

/- A peer applies what it has logged, and answers. -/
theorem consistent_handle
    {h : Nat}
    {clock : Readings}
    (hCons : Consistent codec system)
    (hStep : system.handle cal h clock = some system') :
    Consistent codec system' := by
  unfold System.handle at hStep
  split at hStep
  · cases hStep
  · rename_i handler hHandler
    split at hStep
    · rename_i node hPhase hGet
      cases hStep
      have hPrefix :
          node.aof <+:
            (if node.poisoned then
              (node, none)
            else
              node.settle
                (applyCommand cal node.state handler.command
                  clock)).1.aof := by
        split
        · exact List.prefix_refl _
        · exact Node.aof_prefix_settle _
      have hNode := hCons.setNode _ hGet hPrefix
      have hMem := List.mem_of_getElem? hHandler
      have hLogged := hNode.handlers handler hMem
      refine hNode.setHandler hHandler rfl rfl ?_
      intro _
      apply hLogged
      rw [hPhase]
      exact Phase.noConfusion
    · cases hStep

/-
  A leader goes on to the next peer. If it counts an ack, the
  peer has the command.
-/
theorem consistent_advance
    {r acks : Nat}
    {replication : Replication}
    {peer : NodeInfo}
    {todo : List NodeInfo}
    (hCons : Consistent codec system)
    (hRunning : system.running? r = some replication)
    (hTodo : replication.todo = peer :: todo)
    (hAcks :
      acks = replication.acks ∨
        acks = replication.acks + 1 ∧
          HoldsAt codec system peer.httpAddr
            replication.command) :
    Consistent codec
      (system.advance r replication acks) := by
  rcases running?_eq_some hRunning with ⟨hMem, hNone⟩
  have hRep := hCons.replications replication hMem
  rcases hRep.acked with
    ⟨passed, acked, hPeers, hSub, hCount, hHolds⟩
  have hPeers' :
      replication.peers =
        (passed ++ [peer]) ++ replication.todo.tail := by
    rw [hPeers, hTodo, List.append_assoc]
    rfl
  refine hCons.setReplication ?_
  refine
    { acked := ?_
      contact := (fun _ hContact => by cases hContact)
      result := fun hResult => ?_ }
  · rcases hAcks with rfl | ⟨rfl, hPeer⟩
    · exact
        ⟨passed ++ [peer], acked, hPeers',
          hSub.trans (List.sublist_append_left _ _), hCount,
          hHolds⟩
    · refine
        ⟨passed ++ [peer], acked ++ [peer], hPeers',
          hSub.append (List.Sublist.refl _), ?_, ?_⟩
      · rw [List.length_append, Nat.add_right_comm, ← hCount]
        rfl
      · intro other hOther
        rcases List.mem_append.mp hOther with hOld | hNew
        · exact hHolds other hOld
        · cases List.mem_singleton.mp hNew
          exact hPeer
  · rw [hNone] at hResult
    cases hResult

theorem consistent_answer
    {r : Nat}
    (hCons : Consistent codec system)
    (hStep : system.answer r = some system') :
    Consistent codec system' := by
  unfold System.answer at hStep
  split at hStep
  · cases hStep
  · rename_i replication hRunning
    split at hStep
    · rename_i handler hContact
      rcases Option.bind_eq_some_iff.mp hContact with
        ⟨h, hWaits, hHandler⟩
      rcases running?_eq_some hRunning with ⟨hMem, _⟩
      rcases (hCons.replications replication hMem).contact h
          hWaits with ⟨other, hOther, hCommand, hAddr⟩
      rw [hHandler] at hOther
      cases hOther
      cases hTodo : replication.todo with
      | nil =>
          rw [hTodo] at hAddr
          cases hAddr
      | cons peer todo =>
          rw [hTodo] at hAddr
          have hPeer : peer.httpAddr = handler.addr :=
            Option.some.inj hAddr
          split at hStep
          · rename_i hPhase
            cases hStep
            refine
              consistent_advance hCons hRunning hTodo
                (.inr ⟨rfl, ?_⟩)
            rw [hPeer, ← hCommand]
            apply
              hCons.handlers handler
                (List.mem_of_getElem? hHandler)
            rw [hPhase]
            decide
          · cases hStep
            exact
              consistent_advance hCons hRunning hTodo
                (.inl rfl)
          · cases hStep
    · cases hStep

theorem consistent_giveUp
    {r : Nat}
    (hCons : Consistent codec system)
    (hStep : system.giveUp r = some system') :
    Consistent codec system' := by
  unfold System.giveUp at hStep
  split at hStep
  · cases hStep
  · rename_i replication hRunning
    split at hStep
    · cases hStep
    · rename_i peer todo hTodo
      cases hStep
      exact
        consistent_advance hCons hRunning hTodo (.inl rfl)

/- A call that is refused leaves what is known of it. -/
theorem Replicated.refuse
    {replication : Replication}
    (hRep : Replicated codec system replication) :
    Replicated codec system
      { replication with result := some false } where
  acked := hRep.acked
  contact := hRep.contact
  result := fun hResult => by cases hResult

/-
  The leader logs the command after enough peers have. An
  append that fails is a refusal.
-/
theorem consistent_finish
    {r : Nat}
    {io : AppendIo}
    (hCons : Consistent codec system)
    (hStep : system.finish codec r io = some system') :
    Consistent codec system' := by
  unfold System.finish at hStep
  split at hStep
  · cases hStep
  · rename_i replication hRunning
    rcases running?_eq_some hRunning with ⟨hMem, _⟩
    split at hStep
    · rename_i node hTodo hGet
      split at hStep
      · cases hStep
        exact
          hCons.setReplication
            (hCons.replications replication hMem).refuse
      · rename_i hAcks
        unfold Node.appendCommand at hStep
        have hLog :
            node.aof <+:
              (node.log codec replication.command io).aof :=
          Node.aof_prefix_log replication.command io
        cases hFailure : io.failure with
        | some failure =>
            rw [hFailure] at hStep
            cases hStep
            have hNode := hCons.setNode _ hGet hLog
            exact
              hNode.setReplication
                (hNode.replications replication hMem).refuse
        | none =>
            rw [hFailure] at hStep
            cases hStep
            have hNode :=
              hCons.setNode
                { node.log codec replication.command io with
                  unapplied :=
                    node.unapplied ++
                      [(replication.call,
                        replication.command)] } hGet hLog
            have hRep := hNode.replications replication hMem
            refine hNode.setReplication ?_
            exact
              { acked := hRep.acked
                contact := hRep.contact
                result := fun _ =>
                  ⟨hTodo, Nat.le_of_not_lt hAcks,
                    holdsAt_setNode
                      (Node.holds_log hFailure)⟩ }
    · cases hStep

theorem Handler.cut_request
    (addr : String)
    (handler : Handler) :
    (handler.cut addr).addr = handler.addr ∧
      (handler.cut addr).command = handler.command := by
  unfold cut
  split
  · exact ⟨rfl, rfl⟩
  · exact ⟨rfl, rfl⟩

theorem Logged.cut
    {handler : Handler}
    (hLogged : Logged codec system handler)
    (addr : String) :
    Logged codec system (handler.cut addr) := by
  unfold Handler.cut
  split
  · exact fun hPhase => absurd rfl hPhase
  · exact hLogged

theorem Replicated.cut
    {replication : Replication}
    (hRep : Replicated codec system replication)
    (addr : String) :
    Replicated codec system (replication.cut addr) := by
  unfold Replication.cut
  split
  · exact hRep.refuse
  · exact hRep

/- A restart forgets requests and calls, and keeps logs. -/
theorem consistent_restart
    {addr : String}
    {args : OpenArgs}
    {clock : Nat → Readings}
    (hCons : Consistent codec system)
    (hStep :
      system.restart cal codec addr args clock =
        some system') :
    Consistent codec system' := by
  unfold System.restart at hStep
  split at hStep
  · cases hStep
  · rename_i node hGet
    rcases Option.map_eq_some_iff.mp hStep with
      ⟨node', hReopen, rfl⟩
    have hPrefix : node.aof <+: node'.aof := by
      rw [Node.aof_of_reopen hReopen]
    have hNode := hCons.setNode _ hGet hPrefix
    have hGrows :
        Grows (system.setNode addr node')
          { nodes := system.nodes.insert addr node'
            handlers :=
              system.handlers.map (Handler.cut addr)
            replications :=
              system.replications.map
                (Replication.cut addr) } :=
      { nodes := fun _ node hNode =>
          ⟨node, hNode, List.prefix_refl _⟩
        handlers := fun h handler hHandler =>
          ⟨handler.cut addr,
            (List.getElem?_map ..).trans
              (congrArg _ hHandler),
            handler.cut_request addr⟩ }
    refine hNode.grow hGrows ?_ ?_
    · intro handler hMem
      rcases List.mem_map.mp hMem with ⟨old, hOld, rfl⟩
      exact
        .inr (((hNode.handlers old hOld).cut addr).mono
          hGrows)
    · intro replication hMem
      rcases List.mem_map.mp hMem with ⟨old, hOld, rfl⟩
      exact
        .inr (((hNode.replications old hOld).cut addr).mono
          hGrows)

theorem consistent_step
    {move : Move}
    (hCons : Consistent codec system)
    (hStep : system.step cal codec move = some system') :
    Consistent codec system' := by
  cases move with
  | alone addr label =>
      exact consistent_takeSection hCons hStep
  | begin addr call => exact consistent_begin hCons hStep
  | deliver r io => exact consistent_deliver hCons hStep
  | handle h clock => exact consistent_handle hCons hStep
  | answer r => exact consistent_answer hCons hStep
  | giveUp r => exact consistent_giveUp hCons hStep
  | finish r io => exact consistent_finish hCons hStep
  | restart addr args clock =>
      exact consistent_restart hCons hStep

end Alpha

end Kron

------------------------------------------------------------
-- Majorities
------------------------------------------------------------

namespace Kron

namespace Alpha

variable {codec : JsonCodec CommandEntry}
variable {system : System}

theorem consistent_init
    (nodes : BTreeMap String Node) :
    Consistent codec (System.init nodes) where
  handlers := fun _ hMem => by cases hMem
  replications := fun _ hMem => by cases hMem

/- Distinct members that have the command, at least `acks`. -/
theorem Replicated.holders
    {replication : Replication}
    (hRep : Replicated codec system replication)
    (hResult : replication.result = some true) :
    ∃ holders : List String,
      holders.Sublist replication.members ∧
        replication.members.length < 2 * holders.length ∧
          ∀ addr ∈ holders,
            HoldsAt codec system addr replication.command := by
  rcases hRep.result hResult with ⟨hTodo, hMajority, hLeader⟩
  rcases hRep.acked with
    ⟨passed, acked, hPeers, hSub, hCount, hHolds⟩
  rw [hTodo, List.append_nil] at hPeers
  subst hPeers
  refine
    ⟨replication.addr :: acked.map NodeInfo.httpAddr,
      (hSub.map _).cons_cons _, ?_, ?_⟩
  · unfold Replication.members
    unfold Replication.majority at hMajority
    simp only [List.length_cons, List.length_map]
    omega
  · intro addr hMem
    rcases List.mem_cons.mp hMem with rfl | hPeer
    · exact hLeader
    · rcases List.mem_map.mp hPeer with ⟨peer, hAcked, rfl⟩
      exact hHolds peer hAcked

/- A majority that is left holds a replicated command. -/
theorem Replicated.exists_holder
    {replication : Replication}
    {survivors : Finset String}
    (hRep : Replicated codec system replication)
    (hResult : replication.result = some true)
    (hNodup : replication.members.Nodup)
    (hMembers :
      survivors ⊆ replication.members.toFinset)
    (hMajority :
      replication.members.length < 2 * survivors.card) :
    ∃ addr ∈ survivors,
      HoldsAt codec system addr replication.command := by
  rcases hRep.holders hResult with
    ⟨holders, hSub, hLength, hHolds⟩
  have hCard : holders.toFinset.card = holders.length :=
    List.toFinset_card_of_nodup (hNodup.sublist hSub)
  have hTotal :
      replication.members.toFinset.card =
        replication.members.length :=
    List.toFinset_card_of_nodup hNodup
  have hHolders :
      holders.toFinset ⊆ replication.members.toFinset := by
    intro addr hAddr
    rw [List.mem_toFinset] at hAddr ⊢
    exact hSub.subset hAddr
  have hMeet : (holders.toFinset ∩ survivors).Nonempty := by
    apply
      Finset.inter_nonempty_of_card_lt_card_add_card hHolders
        hMembers
    omega
  rcases hMeet with ⟨addr, hAddr⟩
  rcases Finset.mem_inter.mp hAddr with ⟨hHolder, hSurvivor⟩
  exact
    ⟨addr, hSurvivor, hHolds addr (List.mem_toFinset.mp hHolder)⟩

theorem consistent_of_run
    {nodes : BTreeMap String Node}
    {moves : List Move}
    (hRun :
      Machine.run (System.step cal codec)
        (System.init nodes) moves = some system) :
    Consistent codec system := by
  have hMeets :
      Machine.Meets (System.step cal codec)
        (fun _ _ => True) (System.init nodes) moves :=
    Machine.meets_of_forall _ _ fun _ _ _ => trivial
  exact
    Machine.run_invariant (Consistent codec)
      (fun _ _ _ hCons _ hStep => consistent_step hCons hStep)
      (consistent_init nodes) hMeets hRun

def trioNode
    (nodeId leaderId : String) : NodeInfo × Node where
  fst :=
    { nodeId := nodeId
      httpAddr := nodeId ++ ":7474"
      raftAddr := nodeId ++ ":7475" }
  snd := .fresh
    { nodeId := nodeId
      httpAddr := nodeId ++ ":7474"
      raftAddr := nodeId ++ ":7475"
      leaderId := some leaderId }

/- A leader and two nodes that are about to join it. -/
def trio : BTreeMap String Node :=
  ((∅ : BTreeMap String Node).insert "n1:7474"
      (trioNode "n1" "n1").2 |>.insert "n2:7474"
      (trioNode "n2" "n1").2).insert "n3:7474"
      (trioNode "n3" "n1").2

/- Both join, and only one is there for the next command. -/
def trioMoves : List Move :=
  [.begin "n1:7474" (.join (trioNode "n2" "n1").1),
    .finish 0 (appendAt 0),
    .alone "n1:7474" (.apply 0 ⟨0, 0⟩),
    .begin "n1:7474" (.join (trioNode "n3" "n1").1),
    .deliver 1 (appendAt 0), .handle 0 ⟨0, 0⟩, .answer 1,
    .finish 1 (appendAt 0),
    .alone "n1:7474" (.apply 0 ⟨0, 0⟩),
    .begin "n1:7474" (.create emailRequest 0 0),
    .deliver 2 (appendAt 0), .handle 1 ⟨0, 0⟩, .answer 2,
    .giveUp 2, .finish 2 (appendAt 0)]

/- The command that the leader replicated last. -/
def trioReplication : Replication where
  addr := "n1:7474"
  call := .create emailRequest 0 0
  command :=
    .createTimer
      { id := "email"
        tenantId := none
        schedule := .every 1
        retry := { RetryPolicy.default with maxAttempts := 2 }
        timezone := "UTC"
        target := .workerTask "digest" "null"
        createdAt := 0 }
      (some (second 1))
  peers := [(trioNode "n2" "n1").1, (trioNode "n3" "n1").1]
  todo := []
  acks := 2
  contact := none
  result := some true

end Alpha

end Kron
