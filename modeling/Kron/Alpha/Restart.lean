import Kron.Alpha.Fencing

/-
  What a restart keeps.

  Expiries are not logged, so a restart knows them not. Where
  none takes place, every append succeeds and no command
  about runs is posted, the log tells who holds which run:
  after any number of restarts the same callers may end the
  same runs, and no token is given out twice.

  Key definitions include:
    * `Kron.Alpha.Ledger.ofLog`
    * `Kron.Alpha.claimTickets`
    * `Kron.Alpha.Section.isRecorded`
    * `Kron.Alpha.Recording`

  Key theorems include:
    * `Kron.Alpha.ledger_of_openWithLeader`
    * `Kron.Alpha.recording_of_step`
    * `Kron.Alpha.holders_survive_restart`
    * `Kron.Alpha.tokens_grow_across_restarts`
-/

------------------------------------------------------------
-- Reading Back A Log
------------------------------------------------------------

namespace Kron

namespace Alpha

open Text WorkQueue

/- What a whole log says of runs. -/
def Ledger.ofLog
    (entries : List CommandEntry) : Ledger :=
  entries.foldl (fun ledger entry => ledger.apply entry.command)
    Ledger.empty

variable {cal : Calendar}
variable {codec : JsonCodec CommandEntry}
variable {state state' : ClusterState}

/- Apply the entries of a log from entry `n` on. -/
def replayEntries
    (cal : Calendar)
    (clock : Nat → Readings) :
    Nat → List CommandEntry → ClusterState →
      Option (Except KronError ClusterState)
| _, [], state => some (.ok state)
| n, entry :: rest, state =>
    match applyCommand cal state entry.command (clock n) with
    | none => none
    | some (.error e) => some (.error e)
    | some (.ok state) =>
        replayEntries cal clock (n + 1) rest state

/- Lines that are entries are read as these entries. -/
theorem replayLines_texts
    {clock : Nat → Readings}
    {entries : List CommandEntry}
    (hWrites : ∀ entry ∈ entries, codec.WritesLine entry)
    (n : Nat)
    (state : ClusterState) :
    replayLines cal codec clock n
        (entries.map fun entry => utf8 (codec.toText entry))
        state =
      replayEntries cal clock n entries state := by
  induction entries generalizing n state with
  | nil => rfl
  | cons entry entries ih =>
      have hEntry := hWrites entry List.mem_cons_self
      have hText :
          trim (codec.toText entry) ≠ "" := by
        rw [hEntry.trim_eq]
        exact hEntry.ne_empty
      have hRest :
          ∀ later ∈ entries, codec.WritesLine later :=
        fun later hMem =>
          hWrites later (List.mem_cons_of_mem _ hMem)
      simp only [List.map_cons, replayLines, fromUtf8_utf8,
        if_neg hText, hEntry.decodes, replayEntries]
      cases applyCommand cal state entry.command (clock n) with
      | none => rfl
      | some result =>
          cases result with
          | error e => rfl
          | ok next => exact ih hRest (n + 1) next

theorem ledger_of_replayEntries
    {clock : Nat → Readings}
    {n : Nat}
    {entries : List CommandEntry}
    (hReplay :
      replayEntries cal clock n entries state =
        some (.ok state')) :
    state'.pending = state.pending ∧
      state'.ledger =
        entries.foldl
          (fun ledger entry => ledger.apply entry.command)
          state.ledger := by
  induction entries generalizing n state with
  | nil =>
      cases hReplay
      exact ⟨rfl, rfl⟩
  | cons entry entries ih =>
      simp only [replayEntries] at hReplay
      split at hReplay
      · cases hReplay
      · cases hReplay
      · rename_i next hApply
        rcases ledger_applyCommand hApply with
          ⟨hPending, hLedger⟩
        rcases ih hReplay with ⟨hRest, hFold⟩
        refine ⟨hRest.trans hPending, ?_⟩
        rw [hFold, hLedger]
        rfl

/- The lines of a log are the texts of its entries. -/
theorem bufLines_encodeEntries
    {entries : List CommandEntry}
    (hWrites : ∀ entry ∈ entries, codec.WritesLine entry) :
    bufLines (entries.flatMap (encodeEntry codec)) =
      entries.map fun entry => utf8 (codec.toText entry) := by
  have hBytes :
      entries.flatMap (encodeEntry codec) =
        (entries.map fun entry =>
          utf8 (codec.toText entry)).flatMap
            fun text => text ++ [newline] := by
    rw [List.flatMap_map]
    apply List.flatMap_congr
    intro entry _
    unfold encodeEntry
    rw [utf8_append]
    rfl
  cases entries with
  | nil => rfl
  | cons entry entries =>
      have hNo :
          ∀ text ∈ (entry :: entries).map fun entry =>
              utf8 (codec.toText entry), newline ∉ text := by
        intro text hMem
        rcases List.mem_map.mp hMem with ⟨e, hEntry, rfl⟩
        exact (hWrites e hEntry).noNewline
      rw [List.map_cons] at hNo
      have hLines :=
        bufLines_append_texts [] (utf8 (codec.toText entry))
          (entries.map fun entry =>
            utf8 (codec.toText entry)) hNo
      rw [hBytes, List.map_cons]
      rw [List.nil_append] at hLines
      rw [hLines]
      have hEmpty :
          (lines (closedPart [])).map dropCr = [] := rfl
      rw [hEmpty, List.nil_append]
      have hLast : lastLine [] = [] := rfl
      rw [hLast, List.nil_append, ← List.map_cons
        (f := fun entry => utf8 (codec.toText entry)),
        List.map_map]
      apply List.map_congr_left
      intro e hMem
      have hDrop :=
        dropCr_append_utf8 [] (hWrites e hMem).closes
          (by decide) (by decide)
      simpa using hDrop

/- Opening a log of whole entries applies the entries. -/
theorem openWithLeader_entries
    (args : OpenArgs)
    (clock : Nat → Readings)
    {entries : List CommandEntry}
    (hWrites : ∀ entry ∈ entries, codec.WritesLine entry) :
    openWithLeader cal codec args clock
        (some (entries.flatMap (encodeEntry codec))) =
      (replayEntries cal clock 0 entries
        (ClusterState.new args.config)).map fun result =>
          result.map fun state =>
            (state, entries.flatMap (encodeEntry codec)) := by
  unfold openWithLeader replayCommands
  rw [Option.getD_some, bufLines_encodeEntries hWrites,
    replayLines_texts hWrites]

theorem ledger_new
    (config : ClusterConfig) :
    (ClusterState.new config).ledger = Ledger.empty := by
  refine Ledger.ext ?_ rfl
  apply BTreeMap.ext_get
  intro runId
  rw [get_holders]
  simp [ClusterState.new, Ledger.empty]

/- Opening a log of whole entries reads back its ledger. -/
theorem ledger_of_openWithLeader
    {args : OpenArgs}
    {clock : Nat → Readings}
    {entries : List CommandEntry}
    {opened : ClusterState × Bytes}
    (hWrites : ∀ entry ∈ entries, codec.WritesLine entry)
    (hOpen :
      openWithLeader cal codec args clock
        (some (entries.flatMap (encodeEntry codec))) =
          some (.ok opened)) :
    opened.1.pending = [] ∧
      opened.1.ledger = Ledger.ofLog entries ∧
        opened.2 =
          entries.flatMap (encodeEntry codec) := by
  rw [openWithLeader_entries args clock hWrites] at hOpen
  rcases Option.map_eq_some_iff.mp hOpen with
    ⟨result, hReplay, hEq⟩
  cases result with
  | error e => cases hEq
  | ok state =>
      cases hEq
      rcases ledger_of_replayEntries hReplay with
        ⟨hPending, hLedger⟩
      rw [ledger_new] at hLedger
      exact ⟨hPending, hLedger, rfl⟩

end Alpha

end Kron

------------------------------------------------------------
-- What The Log Records
------------------------------------------------------------

namespace Kron

namespace Alpha

open WorkQueue

/- The ticket of a command that claims a run. -/
def claimTicket? :
    RaftCommand → Option (Ticket TimerId RunId)
| .claimRun timerId runId _ fencingToken _ _ =>
    some
      { resource := timerId
        id := runId
        token := fencingToken.toNat }
| _ => none

/- The tickets of the claims of a log. -/
def claimTickets
    (entries : List CommandEntry) :
    List (Ticket TimerId RunId) :=
  entries.filterMap fun entry => claimTicket? entry.command

/-
  Whether the log gets to know what the section does to runs:
  its append succeeds, no run expires, and no command about
  runs is posted.
-/
def Section.isRecorded : Section → Bool
| .submit (.posted command) io =>
    io.failure.isNone && !command.isRunCommand
| .submit _ io => io.failure.isNone
| .claim _ _ io _ _ => io.failure.isNone
| .complete _ _ io _ _ => io.failure.isNone
| .fail _ _ io _ => io.failure.isNone
| .expire _ _ expired => expired.isEmpty
| _ => true

/- A queue whose tokens grow, and what is held was claimed. -/
structure Sound
    (given : List (Ticket TimerId RunId))
    (q : Queue TimerId RunId)
    (left : Nat) : Prop where
  growing : Growing given q left
  recorded : Recorded given q

variable {given : List (Ticket TimerId RunId)}
variable {q q' : Queue TimerId RunId}
variable {left : Nat}

theorem Sound.idle
    (hSound : Sound given q (left + 1)) :
    Sound given q left :=
  ⟨hSound.growing.idle, hSound.recorded⟩

theorem Sound.steps
    (hSound : Sound given q (left + 1))
    (hSteps : Steps nextToken q q') :
    Sound given q' left :=
  ⟨hSound.growing.steps hSteps,
    recorded_steps hSound.growing.exclusive hSound.recorded
      hSteps⟩

theorem Sound.finish
    (hSound : Sound given q (left + 1))
    (runId : RunId) :
    Sound given (q.release runId) left :=
  hSound.steps (Relation.ReflTransGen.single (.finish runId))

theorem Sound.give
    {t : Ticket TimerId RunId}
    (hSound : Sound given q (left + 1))
    (hStep : Step nextToken q [t] q') :
    Sound (given ++ [t]) q' left :=
  ⟨hSound.growing.give hStep,
    recorded_step hSound.growing.exclusive hSound.recorded
      hStep⟩

/- A queue that is lost stays sound. -/
theorem Sound.lost
    (hSound : Sound given q left) :
    Sound given (q.lost given) left where
  growing :=
    { exclusive := hSound.growing.exclusive.lost
      fenced :=
        fenced_lost hSound.growing.fenced hSound.recorded
      range := fun r => by
        have hRange := hSound.growing.range r
        have hBound := hSound.growing.fenced.bound r
        have hToken :
            (q.lost given).token r = lastToken given r := rfl
        omega }
  recorded := hSound.recorded

/-
  The log of a node tells its runs: it holds every entry, its
  claims carry growing tokens, and behind a lock that is not
  poisoned the holders are those of the log.
-/
structure Recording
    (codec : JsonCodec CommandEntry)
    (node : Node)
    (left : Nat) : Prop where
  aof : node.aof = node.logged.flatMap (encodeEntry codec)
  unapplied :
    ∀ call ∈ node.unapplied, call.2.isRunCommand = false
  handouts : node.tickets.Sublist (claimTickets node.logged)
  durable :
    Sound (claimTickets node.logged)
      ((Ledger.ofLog node.logged).queue []) left
  tokens :
    ∀ r,
      ((Ledger.ofLog node.logged).queue []).token r =
        lastToken (claimTickets node.logged) r
  live :
    node.poisoned = false →
      node.state.ledger.holders =
          (Ledger.ofLog node.logged).holders ∧
        Sound (claimTickets node.logged) node.state.queue left

variable {cal : Calendar}
variable {codec : JsonCodec CommandEntry}
variable {node node' : Node}

/- What a log tells is the queue of its node when it is lost. -/
theorem lost_queue
    {entries : List CommandEntry}
    {state : ClusterState}
    (hHolders :
      state.ledger.holders = (Ledger.ofLog entries).holders)
    (hTokens :
      ∀ r,
        ((Ledger.ofLog entries).queue []).token r =
          lastToken (claimTickets entries) r) :
    state.queue.lost (claimTickets entries) =
      (Ledger.ofLog entries).queue [] := by
  refine Queue.ext rfl ?_ (funext fun r => (hTokens r).symm)
  show state.queue.held = _
  rw [queue_ledger]
  funext runId
  show (state.ledger.holders[runId]?).map heldTicket = _
  rw [hHolders]
  rfl

namespace Recording

/- A step that leaves the runs and the log. -/
theorem keep
    (hRec : Recording codec node (left + 1))
    (hAof : node'.aof = node.aof)
    (hUnapplied :
      ∀ call ∈ node'.unapplied, call ∈ node.unapplied)
    (hLogged : node'.logged = node.logged)
    (hHandouts : node'.handouts = node.handouts)
    (hLive :
      node'.poisoned = false →
        node.poisoned = false ∧
          node'.state.ledger.holders =
              node.state.ledger.holders ∧
            Steps nextToken node.state.queue
              node'.state.queue) :
    Recording codec node' left where
  aof := by rw [hAof, hLogged, hRec.aof]
  unapplied := fun call hMem =>
    hRec.unapplied call (hUnapplied call hMem)
  handouts := by
    unfold Node.tickets
    rw [hHandouts, hLogged]
    exact hRec.handouts
  durable := by
    rw [hLogged]
    exact hRec.durable.idle
  tokens := by
    rw [hLogged]
    exact hRec.tokens
  live := by
    intro hPoisoned
    rcases hLive hPoisoned with ⟨hOpen, hHolders, hSteps⟩
    rcases hRec.live hOpen with ⟨hOld, hSound⟩
    rw [hLogged, hHolders]
    exact ⟨hOld, hSound.steps hSteps⟩

/- A poisoned lock leaves what the log says. -/
theorem poison
    (hRec : Recording codec node left) :
    Recording codec node.poison left where
  aof := hRec.aof
  unapplied := hRec.unapplied
  handouts := hRec.handouts
  durable := hRec.durable
  tokens := hRec.tokens
  live := fun hPoisoned => by cases hPoisoned

end Recording

end Alpha

end Kron

------------------------------------------------------------
-- Sections That Append
------------------------------------------------------------

namespace Kron

namespace Alpha

open WorkQueue

variable {cal : Calendar}
variable {codec : JsonCodec CommandEntry}
variable {node node' : Node}
variable {left : Nat}

theorem ofLog_concat
    (entries : List CommandEntry)
    (entry : CommandEntry) :
    Ledger.ofLog (entries ++ [entry]) =
      (Ledger.ofLog entries).apply entry.command := by
  unfold Ledger.ofLog
  rw [List.foldl_append]
  rfl

theorem claimTickets_concat
    (entries : List CommandEntry)
    (entry : CommandEntry) :
    claimTickets (entries ++ [entry]) =
      claimTickets entries ++
        (claimTicket? entry.command).toList := by
  unfold claimTickets
  rw [List.filterMap_append]
  cases hTicket : claimTicket? entry.command with
  | none => simp [hTicket]
  | some t => simp [hTicket]

/- An entry that is not about runs changes nothing. -/
theorem claimTicket?_eq_none
    {command : RaftCommand}
    (hOther : command.isRunCommand = false) :
    claimTicket? command = none := by
  cases command with
  | claimRun => cases hOther
  | _ => rfl

theorem aof_log
    {command : RaftCommand}
    {io : AppendIo}
    (hAof : node.aof = node.logged.flatMap (encodeEntry codec))
    (hFailure : io.failure = none) :
    (node.log codec command io).aof =
      (node.log codec command io).logged.flatMap
        (encodeEntry codec) := by
  unfold Node.log appended
  rw [hFailure, hAof, List.flatMap_append]
  simp

namespace Recording

/- A call about other things than runs. -/
theorem submitted
    {call : Submission}
    {command : RaftCommand}
    {io : AppendIo}
    (hRec : Recording codec node (left + 1))
    (hFailure : io.failure = none)
    (hOther : command.isRunCommand = false) :
    Recording codec
      { node.log codec command io with
        unapplied := node.unapplied ++ [(call, command)] }
      left := by
  have hLedger :
      Ledger.ofLog (node.logged ++ [entryOf command io]) =
        Ledger.ofLog node.logged := by
    rw [ofLog_concat]
    exact Ledger.apply_of_not_isRunCommand _ hOther
  have hTickets :
      claimTickets (node.logged ++ [entryOf command io]) =
        claimTickets node.logged := by
    have hNone : claimTicket? (entryOf command io).command =
        none := claimTicket?_eq_none hOther
    rw [claimTickets_concat, hNone]
    simp
  constructor
  · exact aof_log hRec.aof hFailure
  · intro entry hMem
    rcases List.mem_append.mp hMem with hOld | hNew
    · exact hRec.unapplied entry hOld
    · rw [List.mem_singleton] at hNew
      subst hNew
      exact hOther
  · show node.tickets.Sublist
      (claimTickets (node.logged ++ [entryOf command io]))
    rw [hTickets]
    exact hRec.handouts
  · show Sound
      (claimTickets (node.logged ++ [entryOf command io]))
      ((Ledger.ofLog
        (node.logged ++ [entryOf command io])).queue []) left
    rw [hTickets, hLedger]
    exact hRec.durable.idle
  · show ∀ r,
      ((Ledger.ofLog
        (node.logged ++ [entryOf command io])).queue
          []).token r =
        lastToken
          (claimTickets
            (node.logged ++ [entryOf command io])) r
    rw [hTickets, hLedger]
    exact hRec.tokens
  · intro hPoisoned
    rcases hRec.live hPoisoned with ⟨hHolders, hSound⟩
    show node.state.ledger.holders =
        (Ledger.ofLog
          (node.logged ++ [entryOf command io])).holders ∧
      Sound
        (claimTickets (node.logged ++ [entryOf command io]))
        node.state.queue left
    rw [hTickets, hLedger]
    exact ⟨hHolders, hSound.idle⟩

/-
  A command about runs that is logged under the lock. `state`
  is what it leaves, unless the lock is poisoned then.
-/
theorem logged_run
    {command : RaftCommand}
    {io : AppendIo}
    (hRec : Recording codec node left)
    (state : ClusterState)
    (hFailure : io.failure = none)
    (hAof : node'.aof = (node.log codec command io).aof)
    (hLogged :
      node'.logged = node.logged ++ [entryOf command io])
    (hUnapplied : node'.unapplied = node.unapplied)
    (hHandouts :
      node'.tickets.Sublist (claimTickets node'.logged))
    (hHolders :
      state.ledger.holders =
        (Ledger.ofLog node'.logged).holders)
    (hTokens :
      ∀ r,
        ((Ledger.ofLog node'.logged).queue []).token r =
          lastToken (claimTickets node'.logged) r)
    (hSound :
      Sound (claimTickets node'.logged) state.queue left)
    (hLive :
      node'.poisoned = false →
        node'.state.ledger.holders = state.ledger.holders ∧
          node'.state.queue = state.queue) :
    Recording codec node' left where
  aof := by
    rw [hAof, aof_log hRec.aof hFailure, hLogged]
    rfl
  unapplied := by
    rw [hUnapplied]
    exact hRec.unapplied
  handouts := hHandouts
  durable := by
    rw [← lost_queue hHolders hTokens]
    exact hSound.lost
  tokens := hTokens
  live := by
    intro hPoisoned
    rcases hLive hPoisoned with ⟨hSame, hQueue⟩
    rw [hSame, hQueue]
    exact ⟨hHolders, hSound⟩

end Recording

end Alpha

end Kron

------------------------------------------------------------
-- Claims And Ends Of Runs
------------------------------------------------------------

namespace Kron

namespace Alpha

open WorkQueue

variable {cal : Calendar}
variable {codec : JsonCodec CommandEntry}
variable {node node' : Node}
variable {left : Nat}

/- Ledgers with the same holders answer alike. -/
theorem hasActive_ofLog
    {entries : List CommandEntry}
    {state : ClusterState}
    (hHolders :
      state.ledger.holders = (Ledger.ofLog entries).holders)
    (timerId : TimerId) :
    (Ledger.ofLog entries).hasActive timerId =
      state.hasActive timerId := by
  rw [← hasActive_ledger]
  unfold Ledger.hasActive
  rw [hHolders]

theorem owns_ofLog
    {entries : List CommandEntry}
    {state : ClusterState}
    (hHolders :
      state.ledger.holders = (Ledger.ofLog entries).holders)
    (runId : RunId)
    (workerId : String)
    (fencingToken : UInt64) :
    ((Ledger.ofLog entries).owns runId workerId
        fencingToken).isSome =
      (state.owns runId workerId fencingToken).isSome := by
  have hOwns :
      (Ledger.ofLog entries).owns runId workerId
          fencingToken =
        state.ledger.owns runId workerId fencingToken := by
    unfold Ledger.owns
    rw [hHolders]
  rw [hOwns, owns_ledger, Option.isSome_map]

/- A claim of a run that waits is accepted by the log. -/
theorem ofLog_claim
    {workerId : String}
    {tasks : List String}
    {run : WorkerRun}
    {io : AppendIo}
    (hHolders :
      node.state.ledger.holders =
        (Ledger.ofLog node.logged).holders)
    (hExclusive : Exclusive node.state.queue)
    (hFind :
      node.state.pending.find?
        (takes node.state workerId tasks) = some run)
    (logged : DateTime) :
    Ledger.ofLog
        (node.logged ++
          [entryOf
            (claimCommandOf (claimOf run workerId logged))
            io]) =
      (Ledger.ofLog node.logged).grant
        (claimOf run workerId logged) := by
  have hMem : ticketOf run ∈ node.state.queue.queued :=
    List.mem_map_of_mem (List.mem_of_find?_eq_some hFind)
  have hFree :
      (Ledger.ofLog node.logged).hasActive run.timer =
        false := by
    rw [hasActive_ofLog hHolders]
    exact
      (hasActive_eq_false_iff run.timer).mpr
        (hExclusive.apart (ticketOf run) hMem)
  rw [ofLog_concat]
  show (if (Ledger.ofLog node.logged).hasActive run.timer then
      _ else _) = _
  rw [hFree]
  rfl

namespace Recording

theorem idle
    (hRec : Recording codec node (left + 1)) :
    Recording codec node left :=
  hRec.keep rfl (fun _ hMem => hMem) rfl rfl
    fun hPoisoned => ⟨hPoisoned, rfl, .refl⟩

/- A claim is logged, whether its worker gets the run or not. -/
theorem claimed
    {workerId : String}
    {tasks : List String}
    {run : WorkerRun}
    {io : AppendIo}
    {logged : DateTime}
    (hRec : Recording codec node (left + 1))
    (held : DateTime)
    (hOpen : node.poisoned = false)
    (hFind :
      node.state.pending.find?
        (takes node.state workerId tasks) = some run)
    (hFailure : io.failure = none)
    (hAof :
      node'.aof =
        (node.log codec
          (claimCommandOf (claimOf run workerId logged))
          io).aof)
    (hLogged :
      node'.logged =
        node.logged ++
          [entryOf
            (claimCommandOf (claimOf run workerId logged))
            io])
    (hUnapplied : node'.unapplied = node.unapplied)
    (hHandouts :
      node'.tickets = node.tickets ∨
        node'.tickets = node.tickets ++ [ticketOf run])
    (hLive :
      node'.poisoned = false →
        node'.state =
          node.claimed workerId tasks run held) :
    Recording codec node' left := by
  rcases hRec.live hOpen with ⟨hHolders, hSound⟩
  have hTickets :
      claimTickets node'.logged =
        claimTickets node.logged ++ [ticketOf run] := by
    rw [hLogged, claimTickets_concat]
    rfl
  have hLedger :
      Ledger.ofLog node'.logged =
        (Ledger.ofLog node.logged).grant
          (claimOf run workerId logged) := by
    rw [hLogged]
    exact
      ofLog_claim hHolders hSound.growing.exclusive hFind
        logged
  apply hRec.idle.logged_run
    (node.claimed workerId tasks run held) hFailure hAof
    hLogged hUnapplied
  · rw [hTickets]
    rcases hHandouts with hSame | hNew
    · rw [hSame]
      exact hRec.handouts.trans (List.sublist_append_left _ _)
    · rw [hNew]
      exact hRec.handouts.append (List.Sublist.refl _)
  · rw [hLedger]
    unfold Node.claimed
    rw [ledger_startActive]
    show node.state.ledger.holders.insert run.runId _ =
      (Ledger.ofLog node.logged).holders.insert run.runId _
    rw [hHolders]
    rfl
  · intro r
    rw [hLedger, hTickets, queue_grant, lastToken_concat,
      ← hRec.tokens r]
    show Function.update
      ((Ledger.ofLog node.logged).queue []).token run.timer
      run.fencingToken.toNat r = _
    rw [Function.update_apply]
    by_cases hEq : r = run.timer
    · simp [hEq, ticketOf]
    · simp [hEq, Ne.symm hEq, ticketOf]
  · rw [hTickets]
    exact hSound.give (step_claimed hFind held)
  · intro hPoisoned
    rw [hLive hPoisoned]
    exact ⟨rfl, rfl⟩

theorem of_claimCase
    {workerId : String}
    {tasks : List String}
    {io : AppendIo}
    {now later : DateTime}
    (hRec : Recording codec node (left + 1))
    (hOpen : node.poisoned = false)
    (hFailure : io.failure = none)
    (hCase :
      node.ClaimCase codec workerId tasks io now later
        node') :
    Recording codec node' left := by
  cases hCase with
  | idle => exact hRec.idle
  | panicked => exact hRec.idle.poison
  | failed run logged failure hFind hFailed =>
      rw [hFailure] at hFailed
      cases hFailed
  | lost run logged hFind =>
      exact
        hRec.claimed logged hOpen hFind hFailure rfl rfl rfl
          (Or.inl rfl) fun hPoisoned => by cases hPoisoned
  | gave run logged held hFind =>
      refine
        hRec.claimed held hOpen hFind hFailure rfl rfl rfl
          (Or.inr ?_) fun _ => rfl
      unfold Node.tickets
      rw [List.map_append]
      rfl

/- The end of a run is logged, and releases it. -/
theorem ended
    {command : RaftCommand}
    {runId : RunId}
    {workerId : String}
    {fencingToken : UInt64}
    {io : AppendIo}
    {state : ClusterState}
    (hRec : Recording codec node (left + 1))
    (hOpen : node.poisoned = false)
    (hApply :
      ∀ ledger : Ledger,
        ledger.apply command =
          ledger.finish runId workerId fencingToken)
    (hNoTicket : claimTicket? command = none)
    (hOwns :
      (node.state.owns runId workerId
        fencingToken).isSome = true)
    (hFailure : io.failure = none)
    (hAof : node'.aof = (node.log codec command io).aof)
    (hLogged :
      node'.logged = node.logged ++ [entryOf command io])
    (hUnapplied : node'.unapplied = node.unapplied)
    (hHandouts : node'.handouts = node.handouts)
    (hLedger : state.ledger = node.state.ledger.release runId)
    (hPending : state.pending = node.state.pending)
    (hLive :
      node'.poisoned = false →
        node'.state.ledger = state.ledger ∧
          node'.state.pending = state.pending) :
    Recording codec node' left := by
  rcases hRec.live hOpen with ⟨hHolders, hSound⟩
  have hTickets :
      claimTickets node'.logged =
        claimTickets node.logged := by
    have hNone : claimTicket? (entryOf command io).command =
        none := hNoTicket
    rw [hLogged, claimTickets_concat, hNone]
    simp
  have hLog :
      Ledger.ofLog node'.logged =
        (Ledger.ofLog node.logged).release runId := by
    rw [hLogged, ofLog_concat]
    show (Ledger.ofLog node.logged).apply command = _
    rw [hApply]
    unfold Ledger.finish
    rw [owns_ofLog hHolders, hOwns]
    rfl
  have hQueue :
      state.queue = node.state.queue.release runId := by
    rw [queue_ledger, queue_ledger, hLedger, hPending,
      queue_release]
  apply hRec.idle.logged_run state hFailure hAof hLogged
    hUnapplied
  · unfold Node.tickets
    rw [hTickets, hHandouts]
    exact hRec.handouts
  · rw [hLog, hLedger]
    unfold Ledger.release
    rw [hHolders]
  · intro r
    rw [hLog, hTickets]
    exact hRec.tokens r
  · rw [hTickets, hQueue]
    exact hSound.finish runId
  · intro hPoisoned
    rcases hLive hPoisoned with ⟨hSame, hWaits⟩
    refine ⟨by rw [hSame], ?_⟩
    rw [queue_ledger, queue_ledger state, hSame, hWaits]

theorem of_completeCase
    {runId : RunId}
    {request : RunCompleteRequest}
    {io : AppendIo}
    {completedAt now : DateTime}
    (hRec : Recording codec node (left + 1))
    (hOpen : node.poisoned = false)
    (hFailure : io.failure = none)
    (hCase :
      node.CompleteCase cal codec runId request io
        completedAt now node') :
    Recording codec node' left := by
  cases hCase with
  | refused => exact hRec.idle
  | failed active failure hOwns hFailed =>
      rw [hFailure] at hFailed
      cases hFailed
  | ended active hOwns =>
      have hKept := Node.settle_eq
        (node.log codec
          (.completeRun runId request.workerId
            request.fencingToken completedAt) io)
        ((rescheduleTimer cal (node.completed runId active)
          active.timerId now).map .ok)
      have hHeld :
          (node.state.owns runId request.workerId
            request.fencingToken).isSome = true := by
        rw [hOwns]
        rfl
      apply hRec.ended hOpen (fun _ => rfl) rfl hHeld hFailure
        hKept.1 hKept.2.2.1 hKept.2.1 hKept.2.2.2
        (ledger_removeActive node.state runId) rfl
      intro hPoisoned
      unfold Node.settle at hPoisoned ⊢
      split at hPoisoned
      · cases hPoisoned
      · rename_i e hResult
        rcases Option.map_eq_some_iff.mp hResult with
          ⟨next, _, hEq⟩
        cases hEq
      · rename_i next hResult
        rcases Option.map_eq_some_iff.mp hResult with
          ⟨next', hNext, hEq⟩
        cases hEq
        rcases ledger_rescheduleTimer hNext with
          ⟨hPending, hLedger⟩
        exact ⟨hLedger, hPending⟩

theorem of_failCase
    {runId : RunId}
    {request : RunFailRequest}
    {io : AppendIo}
    {failedAt : DateTime}
    (hRec : Recording codec node (left + 1))
    (hOpen : node.poisoned = false)
    (hFailure : io.failure = none)
    (hCase :
      node.FailCase codec runId request io failedAt node') :
    Recording codec node' left := by
  cases hCase with
  | refused => exact hRec.idle
  | failed active failure hOwns hFailed =>
      rw [hFailure] at hFailed
      cases hFailed
  | ended active hOwns =>
      have hHeld :
          (node.state.owns runId request.workerId
            request.fencingToken).isSome = true := by
        rw [hOwns]
        rfl
      exact
        hRec.ended hOpen (fun _ => rfl) rfl hHeld hFailure
          rfl rfl rfl rfl
          (ledger_removeActive node.state runId) rfl
          fun _ => ⟨rfl, rfl⟩

end Recording

end Alpha

end Kron

------------------------------------------------------------
-- Sections That Leave The Log
------------------------------------------------------------

namespace Kron

namespace Alpha

open WorkQueue

variable {cal : Calendar}
variable {codec : JsonCodec CommandEntry}
variable {node node' : Node}
variable {state state' : ClusterState}
variable {left : Nat}

theorem ledger_applySubmission
    {call : Submission}
    {command : RaftCommand}
    {clock : Readings}
    (hOther : command.isRunCommand = false)
    (hApply :
      applySubmission cal state call command clock =
        some (.ok state')) :
    state'.pending = state.pending ∧
      state'.ledger = state.ledger := by
  have hCommand :
      applyCommand cal state command clock =
          some (.ok state') →
        state'.pending = state.pending ∧
          state'.ledger = state.ledger := by
    intro hOk
    rcases ledger_applyCommand hOk with ⟨hPending, hLedger⟩
    rw [Ledger.apply_of_not_isRunCommand _ hOther] at hLedger
    exact ⟨hPending, hLedger⟩
  cases call with
  | register request now =>
      rcases Option.map_eq_some_iff.mp hApply with
        ⟨leaseUntil, _, hEq⟩
      cases hEq
      exact ⟨rfl, rfl⟩
  | create request registeredAt createdAt =>
      exact hCommand hApply
  | join node => exact hCommand hApply
  | leave nodeId => exact hCommand hApply
  | posted posted => exact hCommand hApply

theorem activeRuns_enqueueDueRuns
    {now : DateTime}
    {order : List (TimerId × RunId)}
    (hEnqueue :
      state.enqueueDueRuns cal now order = some state') :
    state'.activeRuns = state.activeRuns := by
  have hRun :
      ∀ (current : ClusterState) (id : TimerId)
        (runId : RunId),
        (current.enqueueRun cal id runId).activeRuns =
          current.activeRuns := by
    intro current id runId
    unfold ClusterState.enqueueRun
    split
    · rfl
    · split
      · rfl
      · split
        · rfl
        · rfl
  have hFold :
      ∀ (dues : List (TimerId × RunId))
        (current : ClusterState),
        (dues.foldl
          (fun state due =>
            state.enqueueRun cal due.1 due.2)
          current).activeRuns = current.activeRuns := by
    intro dues
    induction dues with
    | nil => exact fun _ => rfl
    | cons due dues ih =>
        intro current
        exact (ih _).trans (hRun current due.1 due.2)
  unfold ClusterState.enqueueDueRuns at hEnqueue
  split at hEnqueue
  · split at hEnqueue
    · cases hEnqueue
      exact hFold order state
    · cases hEnqueue
  · cases hEnqueue
    rfl

theorem activeRuns_foldl_loseWorker
    (lost : List String)
    (state : ClusterState) :
    (lost.foldl ClusterState.loseWorker state).activeRuns =
      state.activeRuns := by
  induction lost generalizing state with
  | nil => rfl
  | cons workerId lost ih =>
      rw [List.foldl_cons, ih]
      rfl

/- Where no run expires, the runs stay as they are. -/
theorem activeRuns_expireWorkers
    {clock : Readings}
    {lost : List String}
    (hExpire :
      state.expireWorkers cal clock lost [] = some state') :
    state'.activeRuns = state.activeRuns := by
  unfold ClusterState.expireWorkers at hExpire
  split at hExpire
  · simp only at hExpire
    split at hExpire
    · cases hExpire
      exact activeRuns_foldl_loseWorker lost state
    · cases hExpire
  · cases hExpire

theorem holders_congr
    (hActive : state'.activeRuns = state.activeRuns) :
    state'.ledger.holders = state.ledger.holders := by
  unfold ClusterState.ledger
  rw [hActive]

namespace Recording

/- A section that settles what leaves the runs. -/
theorem settled
    {result : Option (Except KronError ClusterState)}
    (hRec : Recording codec node (left + 1))
    (hOpen : node.poisoned = false)
    (entries : List (Submission × RaftCommand))
    (hEntries :
      ∀ call ∈ entries, call ∈ node.unapplied)
    (hResult :
      ∀ state, result = some (.ok state) →
        state.pending = node.state.pending ∧
          state.ledger = node.state.ledger) :
    Recording codec
      ({ node with unapplied := entries }.settle result).1
      left := by
  rcases Node.settle_eq { node with unapplied := entries }
      result with
    ⟨hAof, hUnapplied, hLogged, hHandouts⟩
  apply hRec.keep hAof _ hLogged hHandouts
  · intro _
    refine ⟨hOpen, ?_⟩
    unfold Node.settle
    split
    · exact ⟨rfl, .refl⟩
    · exact ⟨rfl, .refl⟩
    · rename_i state _
      rcases hResult state rfl with ⟨hPending, hLedger⟩
      have hQueue : state.queue = node.state.queue := by
        rw [queue_ledger, queue_ledger node.state, hPending,
          hLedger]
      show state.ledger.holders = node.state.ledger.holders ∧
        Steps nextToken node.state.queue state.queue
      rw [hLedger, hQueue]
      exact ⟨rfl, .refl⟩
  · intro call hMem
    rw [hUnapplied] at hMem
    exact hEntries call hMem

theorem of_lockedStep
    {label : Section}
    (hRec : Recording codec node (left + 1))
    (hOpen : node.poisoned = false)
    (hRecorded : label.isRecorded = true)
    (hStep :
      node.lockedStep cal codec label = some node') :
    Recording codec node' left := by
  cases label with
  | submit call io => cases hStep
  | reopen args clock => cases hStep
  | apply index clock =>
      simp only [Node.lockedStep, Node.applyNext] at hStep
      split at hStep
      · cases hStep
      · rename_i call command hGet
        cases hStep
        have hOther :=
          hRec.unapplied (call, command)
            (List.mem_of_getElem? hGet)
        exact
          hRec.settled hOpen _
            (fun _ hMem => List.mem_of_mem_eraseIdx hMem)
            fun state hState =>
              ledger_applySubmission hOther hState
  | heartbeat workerId instant =>
      have hCase := node.heartbeatWorker_cases workerId instant
      rw [Option.some.inj hStep] at hCase
      cases hCase with
      | ignored => exact hRec.idle
      | renewed worker =>
          refine
            hRec.settled hOpen node.unapplied
              (fun _ hMem => hMem) ?_
          intro state hState
          rcases Option.map_eq_some_iff.mp hState with
            ⟨leaseUntil, _, hEq⟩
          cases hEq
          exact ⟨rfl, rfl⟩
  | claim workerId tasks io now later =>
      have hFailure : io.failure = none :=
        Option.isNone_iff_eq_none.mp hRecorded
      simp only [Node.lockedStep] at hStep
      split at hStep
      · have hCase :=
          node.claimPendingFor_cases codec workerId tasks io
            now later
        rw [Option.some.inj hStep] at hCase
        exact hRec.of_claimCase hOpen hFailure hCase
      · cases hStep
        exact hRec.idle
  | complete runId request io completedAt now =>
      have hFailure : io.failure = none :=
        Option.isNone_iff_eq_none.mp hRecorded
      have hCase :=
        node.completeRun_cases cal codec runId request io
          completedAt now
      rw [Option.some.inj hStep] at hCase
      exact hRec.of_completeCase hOpen hFailure hCase
  | fail runId request io failedAt =>
      have hFailure : io.failure = none :=
        Option.isNone_iff_eq_none.mp hRecorded
      have hCase :=
        node.failRun_cases codec runId request io failedAt
      rw [Option.some.inj hStep] at hCase
      exact hRec.of_failCase hOpen hFailure hCase
  | enqueue now order =>
      rcases Option.map_eq_some_iff.mp hStep with
        ⟨state, hEnqueue, rfl⟩
      exact
        hRec.keep rfl (fun _ hMem => hMem) rfl rfl fun _ =>
          ⟨hOpen,
            holders_congr
              (activeRuns_enqueueDueRuns hEnqueue),
            steps_enqueueDueRuns hEnqueue⟩
  | expire clock lost expired =>
      rcases Option.map_eq_some_iff.mp hStep with
        ⟨state, hExpire, rfl⟩
      have hNone : expired = [] :=
        List.isEmpty_iff.mp hRecorded
      subst hNone
      exact
        hRec.keep rfl (fun _ hMem => hMem) rfl rfl fun _ =>
          ⟨hOpen,
            holders_congr (activeRuns_expireWorkers hExpire),
            steps_expireWorkers hExpire⟩
  | shutdown =>
      cases hStep
      exact
        hRec.keep rfl (fun _ hMem => hMem) rfl rfl fun _ =>
          ⟨hOpen, rfl, .refl⟩

theorem of_submitCase
    {call : Submission}
    {io : AppendIo}
    (hRec : Recording codec node (left + 1))
    (hRecorded :
      Section.isRecorded (.submit call io) = true)
    (hCase : node.SubmitCase cal codec call io node') :
    Recording codec node' left := by
  have hFailure : io.failure = none := by
    cases call with
    | posted command =>
        simp only [Section.isRecorded, Bool.and_eq_true]
          at hRecorded
        exact Option.isNone_iff_eq_none.mp hRecorded.1
    | _ => exact Option.isNone_iff_eq_none.mp hRecorded
  cases hCase with
  | refused => exact hRec.idle
  | failed command failure hCommand hFailed =>
      rw [hFailure] at hFailed
      cases hFailed
  | appended command hCommand =>
      apply hRec.submitted hFailure
      rcases posted_or_other hCommand with rfl | hOther
      · simp only [Section.isRecorded, Bool.and_eq_true,
          Bool.not_eq_true'] at hRecorded
        exact hRecorded.2
      · exact hOther

/- A restart reads the runs back from the log. -/
theorem of_reopen
    {args : OpenArgs}
    {clock : Nat → Readings}
    (hWrites : ∀ entry, codec.WritesLine entry)
    (hRec : Recording codec node (left + 1))
    (hReopen :
      node.reopen cal codec args clock = some node') :
    Recording codec node' left := by
  unfold Node.reopen at hReopen
  split at hReopen
  · rename_i state aof hOpen
    cases hReopen
    rw [hRec.aof] at hOpen
    rcases ledger_of_openWithLeader
        (fun entry _ => hWrites entry) hOpen with
      ⟨hPending, hLedger, hAof⟩
    refine
      ⟨hAof, (fun _ hMem => by cases hMem), hRec.handouts,
        hRec.durable.idle, hRec.tokens, fun _ => ?_⟩
    have hQueue :
        state.queue =
          (Ledger.ofLog node.logged).queue [] := by
      rw [queue_ledger]
      exact congrArg₂ Ledger.queue hLedger hPending
    refine ⟨congrArg Ledger.holders hLedger, ?_⟩
    show Sound _ state.queue left
    rw [hQueue]
    exact hRec.durable.idle
  · cases hReopen

end Recording

/- Every recorded step keeps the log in step with the runs. -/
theorem recording_of_step
    {label : Section}
    (hWrites : ∀ entry, codec.WritesLine entry)
    (hRec : Recording codec node (left + 1))
    (hRecorded : label.isRecorded = true)
    (hStep : node.step cal codec label = some node') :
    Recording codec node' left := by
  rcases Node.step_cases hStep with
    ⟨call, io, rfl, rfl⟩ | ⟨args, clock, rfl, hReopen⟩ |
      ⟨_, rfl⟩ | ⟨hOpen, hLocked⟩
  · exact
      hRec.of_submitCase hRecorded
        (node.submit_cases cal codec call io)
  · exact hRec.of_reopen hWrites hReopen
  · exact hRec.idle
  · exact hRec.of_lockedStep hOpen hRecorded hLocked

end Alpha

end Kron

------------------------------------------------------------
-- Runs With Restarts
------------------------------------------------------------

namespace Kron

namespace Alpha

open WorkQueue

variable {cal : Calendar}
variable {codec : JsonCodec CommandEntry}
variable {args : OpenArgs}
variable {labels : List Section}
variable {node : Node}

theorem recording_fresh
    {left : Nat}
    (hRange : left < 2 ^ 64) :
    Recording codec (Node.fresh args) left := by
  have hQueue :
      (Ledger.ofLog []).queue [] =
        (ClusterState.new args.config).queue := by
    rw [queue_ledger, ledger_new]
    rfl
  have hRestored := restored_new args.config
  have hRecorded :
      Recorded [] (ClusterState.new args.config).queue := by
    intro runId t hHeld
    rcases queue_held_eq_some.mp hHeld with
      ⟨active, hGet, _⟩
    simp [ClusterState.new] at hGet
  have hSound :
      Sound [] (ClusterState.new args.config).queue left := by
    refine
      ⟨⟨hRestored.exclusive, hRestored.fenced, ?_⟩,
        hRecorded⟩
    intro r
    simpa [ClusterState.queue, ClusterState.token,
      ClusterState.new] using hRange
  refine
    ⟨rfl, (fun _ hMem => by cases hMem), .slnil, ?_, ?_, ?_⟩
  · show Sound [] ((Ledger.ofLog []).queue []) left
    rw [hQueue]
    exact hSound
  · intro r
    simp [Ledger.ofLog, Ledger.empty, Ledger.queue, Node.fresh,
      claimTickets, lastToken]
  · intro _
    refine ⟨?_, hSound⟩
    show (ClusterState.new args.config).ledger.holders = _
    rw [ledger_new]
    rfl

theorem recording_of_run
    (hWrites : ∀ entry, codec.WritesLine entry)
    (hRecorded :
      ∀ label ∈ labels, label.isRecorded = true)
    (hRange : labels.length < 2 ^ 64)
    (hRun :
      Machine.run (Node.step cal codec) (Node.fresh args)
        labels = some node) :
    Recording codec node 0 := by
  have hMeets :
      Machine.Meets (Node.step cal codec)
        (fun _ label => label.isRecorded = true)
        (Node.fresh args) labels :=
    Machine.meets_of_forall _ _ fun label hMem _ =>
      hRecorded label hMem
  refine
    Machine.run_invariant_rest
      (fun node labels => Recording codec node labels.length)
      ?_ (recording_fresh hRange) hMeets hRun
  intro node label labels node' hRec hRecorded hStep
  exact recording_of_step hWrites hRec hRecorded hStep

/-
  No token is given out twice, over any number of restarts,
  where no run expires, no command about runs is posted and
  every append succeeds.
-/
theorem tokens_grow_across_restarts
    (cal : Calendar)
    (codec : JsonCodec CommandEntry)
    (hWrites : ∀ entry, codec.WritesLine entry)
    (args : OpenArgs)
    (labels : List Section)
    (node : Node)
    (hRecorded :
      ∀ label ∈ labels, label.isRecorded = true)
    (hRange : labels.length < 2 ^ 64)
    (hRun :
      Machine.run (Node.step cal codec) (Node.fresh args)
        labels = some node) :
    node.handouts.Pairwise fun handout later =>
      handout.run.timer = later.run.timer →
        handout.run.fencingToken <
          later.run.fencingToken := by
  have hRec := recording_of_run hWrites hRecorded hRange hRun
  have hIncreasing := hRec.durable.growing.fenced.increasing
  have hPairwise := hIncreasing.sublist hRec.handouts
  unfold Node.tickets at hPairwise
  rw [List.pairwise_map] at hPairwise
  refine hPairwise.imp ?_
  intro handout later hLess hEq
  exact UInt64.lt_iff_toNat_lt.mpr (hLess hEq)

/- The claimed run of `email` is logged by three entries. -/
theorem emailRun_reopens :
    ∃ node opened,
      Machine.run (Node.step utcCalendar emailCodec)
          (Node.fresh soloArgs) emailRun = some node ∧
        node.poisoned = false ∧
        openWithLeader utcCalendar emailCodec soloArgs
            (stillClock (second 2)) (some node.aof) =
          some (.ok opened) := by
  rcases exists_of_isSome (Node.fresh soloArgs) emailRun
      (by decide +kernel) with ⟨node, hRun⟩
  have hFields :
      (Machine.run (Node.step utcCalendar emailCodec)
          (Node.fresh soloArgs) emailRun).map
        (fun node => (node.poisoned, node.logged)) =
          some (false, emailEntries.take 3) := by
    decide +kernel
  rw [hRun, Option.map_some] at hFields
  rcases Prod.mk.inj (Option.some.inj hFields) with
    ⟨hOpen, hLogged⟩
  have hRec :=
    recording_of_run emailCodec_writesLine (by decide)
      (by decide) hRun
  have hReplay :
      ((replayEntries utcCalendar (stillClock (second 2)) 0
        (emailEntries.take 3)
        (ClusterState.new soloArgs.config)).map fun result =>
          result.toOption.isSome) = some true := by
    decide +kernel
  rcases Option.map_eq_some_iff.mp hReplay with
    ⟨result, hResult, hOk⟩
  cases result with
  | error e => cases hOk
  | ok state =>
      refine ⟨node, (state, node.aof), hRun, hOpen, ?_⟩
      rw [hRec.aof,
        openWithLeader_entries _ _
          (fun entry _ => emailCodec_writesLine entry),
        hLogged, hResult]
      rfl

/- The token of a claim is not given out after a restart. -/
theorem tokens_grow_across_restarts_email :
    ∃ node,
      Machine.run (Node.step utcCalendar emailCodec)
          (Node.fresh soloArgs)
          (emailRun ++
            [.reopen soloArgs (stillClock (second 2))]) =
        some node ∧
      node.handouts.Pairwise fun handout later =>
        handout.run.timer = later.run.timer →
          handout.run.fencingToken <
            later.run.fencingToken := by
  rcases emailRun_reopens with
    ⟨node, opened, hRun, hOpen, hReopen⟩
  have hStep :
      Machine.run (Node.step utcCalendar emailCodec)
          (Node.fresh soloArgs)
          (emailRun ++
            [.reopen soloArgs (stillClock (second 2))]) =
        some
          { node with
            state := opened.1
            aof := opened.2
            unapplied := []
            poisoned := false } := by
    rw [Machine.run_append, hRun]
    simp [Machine.run, Node.step, Node.reopen, hReopen]
  exact
    ⟨_, hStep,
      tokens_grow_across_restarts _ _ emailCodec_writesLine
        soloArgs _ _ (by decide) (by decide) hStep⟩

/- What a caller is told about a run, but for its deadline. -/
def runAnswer
    (state : ClusterState)
    (runId : RunId)
    (workerId : String)
    (fencingToken : UInt64) : Except KronError ActiveRun :=
  (validateActiveRun state runId workerId fencingToken).map
    withoutDeadline

/- The answer is that of the ledger. -/
theorem runAnswer_congr
    {state state' : ClusterState}
    (hHolders :
      state'.ledger.holders = state.ledger.holders)
    (runId : RunId)
    (workerId : String)
    (fencingToken : UInt64) :
    runAnswer state' runId workerId fencingToken =
      runAnswer state runId workerId fencingToken := by
  have hGet :
      (state'.activeRuns[runId]?).map withoutDeadline =
        (state.activeRuns[runId]?).map withoutDeadline := by
    rw [← get_holders, ← get_holders, hHolders]
  unfold runAnswer validateActiveRun
  cases hOld : state.activeRuns[runId]? with
  | none =>
      rw [hOld] at hGet
      rw [Option.map_eq_none_iff.mp hGet]
  | some active =>
      rw [hOld] at hGet
      rcases Option.map_eq_some_iff.mp hGet with
        ⟨active', hNew, hSame⟩
      rw [hNew]
      have hWorkers :=
        congrArg PersistedActiveRun.workerId hSame
      have hTokens :=
        congrArg PersistedActiveRun.fencingToken hSame
      have hWorker : active'.workerId = active.workerId :=
        hWorkers
      have hToken :
          active'.fencingToken = active.fencingToken :=
        hTokens
      simp only [hWorker, hToken]
      split
      · rfl
      · split
        · rfl
        · exact congrArg Except.ok hSame

/-
  A restart in such a run empties the queue, and answers
  every caller that ends a run as the node before it did.
-/
theorem holders_survive_restart
    (cal : Calendar)
    (codec : JsonCodec CommandEntry)
    (hWrites : ∀ entry, codec.WritesLine entry)
    (args : OpenArgs)
    (labels : List Section)
    (node : Node)
    (args' : OpenArgs)
    (clock : Nat → Readings)
    (opened : ClusterState × Bytes)
    (hRecorded :
      ∀ label ∈ labels, label.isRecorded = true)
    (hRange : labels.length < 2 ^ 64)
    (hRun :
      Machine.run (Node.step cal codec) (Node.fresh args)
        labels = some node)
    (hPoisoned : node.poisoned = false)
    (hOpen :
      openWithLeader cal codec args' clock (some node.aof) =
        some (.ok opened)) :
    opened.1.pending = [] ∧
      ∀ runId workerId fencingToken,
        runAnswer opened.1 runId workerId fencingToken =
          runAnswer node.state runId workerId
            fencingToken := by
  have hRec := recording_of_run hWrites hRecorded hRange hRun
  rw [hRec.aof] at hOpen
  rcases ledger_of_openWithLeader
      (fun entry _ => hWrites entry) hOpen with
    ⟨hPending, hLedger, _⟩
  refine ⟨hPending, ?_⟩
  intro runId workerId fencingToken
  apply runAnswer_congr
  rw [hLedger, (hRec.live hPoisoned).1]

/- After a restart `w1` may still end its run. -/
theorem holders_survive_restart_email :
    ∃ (node : Node) (opened : ClusterState × Bytes),
      Machine.run (Node.step utcCalendar emailCodec)
          (Node.fresh soloArgs) emailRun = some node ∧
        opened.1.pending = [] ∧
        ∀ runId workerId fencingToken,
          runAnswer opened.1 runId workerId fencingToken =
            runAnswer node.state runId workerId
              fencingToken := by
  rcases emailRun_reopens with
    ⟨node, opened, hRun, hOpen, hReopen⟩
  exact
    ⟨node, opened, hRun,
      holders_survive_restart _ _ emailCodec_writesLine
        soloArgs _ _ soloArgs _ _ (by decide) (by decide)
        hRun hOpen hReopen⟩

end Alpha

end Kron
