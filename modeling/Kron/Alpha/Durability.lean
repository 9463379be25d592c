import Kron.Alpha.Replication
import Kron.Alpha.Restart

/-
  What the nodes of a quorum server show after restarts.

  A node that is started again applies every line of its log
  or does not start at all, and no command takes a timer
  away. So a timer whose creation a leader replicated is
  shown by some node of every majority, once that node has
  been started again. Appends may fail and leave parts of
  lines behind: the line that continues such a part reads as
  the entry that it ends in, or not at all.

  Key definitions include:
    * `JsonCodec.EndsAlone`
    * `Kron.RaftCommand.created`
    * `Kron.Alpha.ClusterState.HasTimer`

  Key theorems include:
    * `Text.mem_bufLines_line`
    * `Kron.Alpha.timers_applyCommand`
    * `Kron.Alpha.hasTimer_replayLines`
    * `Kron.Alpha.created_timer_outlives_minority`
-/

------------------------------------------------------------
-- Lines That Continue Others
------------------------------------------------------------

namespace Text

theorem mem_bufLines_of_mem_lines
    {bs line : Bytes}
    (hMem : line ∈ lines bs)
    (hKeeps : dropCr line = line) :
    line ∈ bufLines bs := by
  rw [lines_eq_closedPart] at hMem
  unfold bufLines
  rcases List.mem_append.mp hMem with hClosed | hLast
  · apply List.mem_append_left
    exact List.mem_map.mpr ⟨line, hClosed, hKeeps⟩
  · exact List.mem_append_right _ hLast

/- A line that was written is read, after what it continues. -/
theorem mem_bufLines_line
    (before after : Bytes)
    {s : String}
    (hNo : newline ∉ utf8 s)
    (hCloses : s.toList.getLast? = some '\x7d') :
    lastLine before ++ utf8 s ∈
      bufLines (before ++ utf8 (s ++ "\n") ++ after) := by
  apply mem_bufLines_of_mem_lines
  · have hBytes :
        before ++ utf8 (s ++ "\n") ++ after =
          before ++ (utf8 s ++ newline :: after) := by
      have hNewline : utf8 "\n" = [newline] := rfl
      rw [utf8_append, hNewline]
      simp
    rw [hBytes, lines_append_line before hNo after]
    exact List.mem_append_right _ List.mem_cons_self
  · exact
      dropCr_append_utf8 _ hCloses (by decide) (by decide)

end Text

namespace JsonCodec

variable {α : Type}

/-
  A text that ends in the text of a value reads as this value
  or not at all.
-/
def EndsAlone
    (codec : JsonCodec α) : Prop :=
  ∀ (s : String) (a b : α),
    codec.fromText (s ++ codec.toText a) = .ok b → b = a

end JsonCodec

section TableCodecEnds

open Text

variable {α : Type}
variable [Countable α] [DecidableEq α]
variable {table : List (α × String)}

theorem tableCodec_endsAlone
    (hTable : TableOk table) :
    (tableCodec table).EndsAlone := by
  intro s a b hRead
  simp only [tableCodec] at hRead
  split at hRead
  · rename_i hExists
    cases hRead
    symm
    apply eq_of_tableChars_suffix hTable
    rw [hExists.choose_spec]
    by_cases hBlank : isBlank s = true
    · rw [trim_append_of_isBlank hBlank,
        trim_tableText hTable, String.toList_ofList]
    · rw [toList_trim_append (by simpa using hBlank)
        String.toList_ofList (tableChars_getLast? hTable a)
        (by decide)]
      exact List.suffix_append _ _
  · cases hRead

end TableCodecEnds

------------------------------------------------------------
-- Timers Are Never Taken Away
------------------------------------------------------------

namespace Kron

/- The spec that a command stores. -/
def RaftCommand.created :
    RaftCommand → Option DistributedTimerSpec
| .createTimer spec _ => some spec
| .updateTimer spec _ => some spec
| _ => none

namespace Alpha

/- A state has a timer of this name. -/
def ClusterState.HasTimer
    (state : ClusterState)
    (id : TimerId) : Prop :=
  (state.timers[id]?).isSome = true

variable {cal : Calendar}
variable {state state' : ClusterState}

/- What a command does to the timers. -/
theorem timers_applyCommand
    {command : RaftCommand}
    {clock : Readings}
    (hApply :
      applyCommand cal state command clock =
        some (.ok state')) :
    state'.timers =
      command.created.elim state.timers fun spec =>
        state.timers.insert spec.id spec := by
  cases command with
  | createTimer spec nextRunAt =>
      rw [applyCreateTimer_eq_ok hApply]
      rfl
  | updateTimer spec nextRunAt =>
      rw [applyCreateTimer_eq_ok hApply]
      rfl
  | resumeTimer timerId nextRunAt =>
      rcases Option.map_eq_some_iff.mp hApply with
        ⟨next, hNext, hEq⟩
      cases hEq
      rw [rescheduleTimer_eq_some hNext]
      rfl
  | claimRun =>
      simp only [applyCommand] at hApply
      split at hApply
      · cases hApply
        rfl
      · cases hApply
        rfl
  | completeRun =>
      simp only [applyCommand] at hApply
      split at hApply
      · cases hApply
        rfl
      · rcases Option.map_eq_some_iff.mp hApply with
          ⟨next, hNext, hEq⟩
        cases hEq
        rw [rescheduleTimer_eq_some hNext]
        rfl
  | failRun =>
      simp only [applyCommand] at hApply
      split at hApply
      · cases hApply
        rfl
      · cases hApply
        rfl
  | heartbeatWorker workerId leaseUntil =>
      simp only [applyCommand] at hApply
      split at hApply
      · cases hApply
        rfl
      · rcases Option.map_eq_some_iff.mp hApply with
          ⟨until_, _, hEq⟩
        cases hEq
        rfl
  | registerWorker workerId tasks leaseUntil =>
      rcases Option.map_eq_some_iff.mp hApply with
        ⟨until_, _, hEq⟩
      cases hEq
      rfl
  | addNode node =>
      simp only [applyCommand] at hApply
      split at hApply
      · cases hApply
        rfl
      · cases hApply
        rfl
  | _ =>
      cases hApply
      rfl

theorem hasTimer_applyCommand
    {command : RaftCommand}
    {clock : Readings}
    {id : TimerId}
    (hApply :
      applyCommand cal state command clock =
        some (.ok state'))
    (hHas : state.HasTimer id) :
    state'.HasTimer id := by
  unfold ClusterState.HasTimer
  rw [timers_applyCommand hApply]
  cases command.created with
  | none => exact hHas
  | some spec =>
      rw [Option.elim_some, BTreeMap.get_insert]
      split
      · rfl
      · exact hHas

theorem hasTimer_created
    {command : RaftCommand}
    {clock : Readings}
    {spec : DistributedTimerSpec}
    (hApply :
      applyCommand cal state command clock =
        some (.ok state'))
    (hCreated : command.created = some spec) :
    state'.HasTimer spec.id := by
  unfold ClusterState.HasTimer
  rw [timers_applyCommand hApply, hCreated, Option.elim_some,
    BTreeMap.get_insert, if_pos rfl]
  rfl

end Alpha

end Kron

------------------------------------------------------------
-- What A Restart Reads
------------------------------------------------------------

namespace Kron

namespace Alpha

open Text

variable {cal : Calendar}
variable {codec : JsonCodec CommandEntry}
variable {state state' : ClusterState}
variable {node node' : Node}

/- A line is not skipped, and creates the timer if it is read. -/
def Creates
    (codec : JsonCodec CommandEntry)
    (id : TimerId)
    (line : Bytes) : Prop :=
  ∀ text,
    fromUtf8 line = some text →
      trim text ≠ "" ∧
        ∀ entry,
          codec.fromText text = .ok entry →
            ∃ spec,
              entry.command.created = some spec ∧
                spec.id = id

/- A replay that ends has applied each of its lines. -/
theorem hasTimer_replayLines
    {clock : Nat → Readings}
    {n : Nat}
    {ls : List Bytes}
    {id : TimerId}
    (hReplay :
      replayLines cal codec clock n ls state =
        some (.ok state'))
    (hHas :
      state.HasTimer id ∨
        ∃ line ∈ ls, Creates codec id line) :
    state'.HasTimer id := by
  induction ls generalizing n state with
  | nil =>
      cases hReplay
      rcases hHas with hHas | ⟨line, hMem, _⟩
      · exact hHas
      · cases hMem
  | cons line rest ih =>
      simp only [replayLines] at hReplay
      split at hReplay
      · cases hReplay
      · rename_i text hText
        split at hReplay
        · rename_i hBlank
          apply ih hReplay
          rcases hHas with hHas | ⟨other, hMem, hCreates⟩
          · exact .inl hHas
          · rcases List.mem_cons.mp hMem with rfl | hRest
            · exact absurd hBlank (hCreates text hText).1
            · exact .inr ⟨other, hRest, hCreates⟩
        · split at hReplay
          · cases hReplay
          · rename_i entry hEntry
            split at hReplay
            · cases hReplay
            · cases hReplay
            · rename_i next hApply
              apply ih hReplay
              rcases hHas with hHas | ⟨other, hMem, hCreates⟩
              · left
                exact hasTimer_applyCommand hApply hHas
              · rcases List.mem_cons.mp hMem with rfl | hRest
                · rcases (hCreates text hText).2 entry hEntry
                    with ⟨spec, hSpec, rfl⟩
                  exact .inl (hasTimer_created hApply hSpec)
                · exact .inr ⟨other, hRest, hCreates⟩

/- The line of a creation, whatever it continues. -/
theorem creates_of_line
    {entry : CommandEntry}
    {spec : DistributedTimerSpec}
    (hAlone : codec.EndsAlone)
    (hWrites : codec.WritesLine entry)
    (hCreated : entry.command.created = some spec)
    (front : Bytes) :
    Creates codec spec.id
      (front ++ utf8 (codec.toText entry)) := by
  intro text hText
  have hBytes := utf8_of_fromUtf8 hText
  rcases exists_append_of_utf8_eq hBytes.symm with
    ⟨s, rfl, _⟩
  constructor
  · intro hTrim
    have hBlank := (trim_eq_empty_iff _).mp hTrim
    rw [isBlank_append, hWrites.not_isBlank,
      Bool.and_false] at hBlank
    cases hBlank
  · intro other hRead
    rw [hAlone s entry other hRead]
    exact ⟨spec, hCreated, rfl⟩

/- A node that holds a creation shows it once reopened. -/
theorem summary_of_reopen
    {command : RaftCommand}
    {spec : DistributedTimerSpec}
    {args : OpenArgs}
    {clock : Nat → Readings}
    (hWrites : ∀ entry, codec.WritesLine entry)
    (hAlone : codec.EndsAlone)
    (hHolds : node.Holds codec command)
    (hCreated : command.created = some spec)
    (hReopen :
      node.reopen cal codec args clock = some node') :
    (summaryFor node'.state spec.id).isSome = true := by
  rcases hHolds with ⟨before, entry, after, rfl, hAof⟩
  have hLine :
      lastLine before ++ utf8 (codec.toText entry) ∈
        bufLines node.aof := by
    rw [hAof]
    exact
      mem_bufLines_line before after (hWrites entry).noNewline
        (hWrites entry).closes
  have hCreates :
      Creates codec spec.id
        (lastLine before ++ utf8 (codec.toText entry)) :=
    creates_of_line hAlone (hWrites entry) hCreated _
  unfold Node.reopen at hReopen
  split at hReopen
  · rename_i opened aof hOpen
    cases hReopen
    rcases Option.map_eq_some_iff.mp hOpen with
      ⟨result, hReplay, hEq⟩
    cases result with
    | error e => cases hEq
    | ok state =>
        cases hEq
        have hHas : opened.HasTimer spec.id :=
          hasTimer_replayLines hReplay
            (.inr ⟨_, hLine, hCreates⟩)
        unfold summaryFor
        rw [Option.isSome_map]
        exact hHas
  · cases hReopen

end Alpha

end Kron

------------------------------------------------------------
-- Main Result
------------------------------------------------------------

namespace Kron

namespace Alpha

/- A log of whole entries that apply lets a node start. -/
theorem exists_restart
    {cal : Calendar}
    {codec : JsonCodec CommandEntry}
    {system : System}
    {addr : String}
    {args : OpenArgs}
    {clock : Nat → Readings}
    {entries : List CommandEntry}
    (hWrites : ∀ entry ∈ entries, codec.WritesLine entry)
    (hAof :
      (system.nodes[addr]?).map Node.aof =
        some (entries.flatMap (encodeEntry codec)))
    (hReplay :
      (replayEntries cal clock 0 entries
        (ClusterState.new args.config)).any
          (fun result => result.toOption.isSome) = true) :
    ∃ system',
      System.step cal codec system
        (.restart addr args clock) = some system' := by
  rcases Option.map_eq_some_iff.mp hAof with
    ⟨node, hGet, hBytes⟩
  rcases (Option.any_eq_true_iff_get _ _).mp hReplay with
    ⟨hSome, hOk⟩
  have hResult := (Option.some_get hSome).symm
  generalize Option.get _ hSome = result at hOk hResult
  cases result with
  | error e => cases hOk
  | ok opened =>
      simp only [System.step, System.restart, hGet,
        Node.reopen]
      rw [hBytes,
        openWithLeader_entries args clock hWrites, hResult]
      exact ⟨_, rfl⟩

/- What the second node of the trio has logged. -/
def trioEntries : List CommandEntry :=
  [entryOf (.addNode (trioNode "n3" "n1").1) (appendAt 0),
    entryOf trioReplication.command (appendAt 0)]

/- Both nodes that are left can be started again. -/
theorem trio_restarts
    {system : System}
    (hRun :
      Machine.run (System.step utcCalendar emailCodec)
        (System.init trio) trioMoves = some system)
    {addr : String}
    (hAddr :
      addr ∈ ({"n2:7474", "n3:7474"} : Finset String)) :
    ∃ args clock system',
      System.step utcCalendar emailCodec system
        (.restart addr args clock) = some system' := by
  have hLogs :
      (Machine.run (System.step utcCalendar emailCodec)
          (System.init trio) trioMoves).map (fun system =>
        ((system.nodes["n2:7474"]?).map Node.aof,
          (system.nodes["n3:7474"]?).map Node.aof)) =
        some
          (some
            ([] ++
              appended emailCodec
                (.addNode (trioNode "n3" "n1").1)
                (appendAt 0) ++
              appended emailCodec trioReplication.command
                (appendAt 0)),
            some []) := by
    with_unfolding_all rfl
  have hBytes :
      [] ++
          appended emailCodec
            (.addNode (trioNode "n3" "n1").1) (appendAt 0) ++
          appended emailCodec trioReplication.command
            (appendAt 0) =
        trioEntries.flatMap (encodeEntry emailCodec) := by
    simp [trioEntries, appended, appendAt]
  rw [hRun, Option.map_some, Option.some_inj] at hLogs
  rcases Prod.mk.inj hLogs with ⟨hSecond, hThird⟩
  rw [hBytes] at hSecond
  rw [Finset.mem_insert, Finset.mem_singleton] at hAddr
  refine ⟨soloArgs, stillClock (second 2), ?_⟩
  rcases hAddr with rfl | rfl
  · exact
      exists_restart
        (fun entry _ => emailCodec_writesLine entry) hSecond
        (by decide +kernel)
  · exact
      exists_restart (List.forall_mem_nil _) hThird
        (by decide +kernel)

end Alpha

end Kron
