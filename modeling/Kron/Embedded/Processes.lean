import Kron.Embedded.Memory
import Kron.Embedded.TimerSteps

/-
  Several processes on one data directory.

  An engine takes the lock of its directory when it is opened
  and gives it back when its process ends between sections.
  The command line reads a directory without a lock, and
  compacts it under the lock when no engine answers. The
  directory is one history: the snapshot holds what was
  logged before the last compaction, the log what came since,
  whatever processes come and go.

  Key definitions include:
    * `Kron.World`
    * `Kron.World.step`
    * `Kron.compactReadOnly`
    * `Kron.Ipc.history`
    * `Kron.EngineState.summary`
    * `Kron.Inner.Writes`
    * `Kron.Stored`

  Key theorems include:
    * `Kron.writes_of_step`
    * `Kron.World.Sound.step`
    * `Kron.directory_is_one_history`
    * `Kron.offline_status_agrees`
    * `Kron.status_of_record`
    * `Kron.history_since_compaction`
-/

------------------------------------------------------------
-- Processes And Their Directory
------------------------------------------------------------

namespace Kron

open FileSystem

/-
  The directory, which engine holds its lock, and the engines
  by a number. No step reads `archived` and `recent`, the
  events that were handed to the log before and after the
  last compaction.
-/
structure World where
  dir : DataDir
  lock : Option Nat
  engines : BTreeMap Nat Engine
  archived : List Event
  recent : List Event

/-
  One step of one process. Here `exit` is the end of it, and
  `compact` is `kron log compact` without a runtime.
-/
inductive WorldLabel where
| open_ (pid : Nat) (dataDir : String)
| engine (pid : Nat) (sec : Section)
| exit (pid : Nat)
| compact (dataDir : String) (now later : DateTime)

/- An engine opens its directory through `open_` alone. -/
def Section.isReopen : Section → Bool
| .reopen _ _ => true
| _ => false

def Section.isCompact : Section → Bool
| .compact _ _ => true
| _ => false

/- The engine works on the directory as it is. -/
def Engine.on
    (engine : Engine)
    (dir : DataDir) : Engine :=
  { engine with inner := { engine.inner with dir := dir } }

variable (cal : Calendar)
variable (codec : JsonCodec LogEntry)
variable (snaps : JsonCodec Snapshot)

/-
  `compact_read_only`. A missing log is created, and an error
  leaves the directory.
-/
def compactReadOnly
    (dataDir : String)
    (dir : DataDir)
    (now later : DateTime) : Except KronError DataDir :=
  match loadState codec snaps dataDir dir with
  | .error e => .error e
  | .ok state =>
      let dir := dir.insert aofName (aofBytes dir)
      .ok (runAll dir (compact snaps dir state now later))

namespace World

/- A new directory, with no process. -/
def init : World where
  dir := ∅
  lock := none
  engines := ∅
  archived := []
  recent := []

variable (world : World)

/- All events ever logged, in their order. -/
def record : List Event :=
  world.archived ++ world.recent

/- What a compaction moves. -/
def archive : World :=
  { world with
    archived := world.record
    recent := [] }

/-
  `Engine::open` under the lock. A log that cannot be read
  exists afterwards, and the lock is given back.
-/
def openLocked
    (pid : Nat)
    (dataDir : String) : World :=
  match openEngine codec snaps dataDir world.dir with
  | .error _ =>
      { world with
        dir := world.dir.insert aofName (aofBytes world.dir) }
  | .ok inner =>
      { world with
        dir := inner.dir
        lock := some pid
        engines :=
          world.engines.insert pid (Engine.ofInner inner) }

/- A section of an engine, and what it logs. -/
def section_
    (pid : Nat)
    (engine : Engine)
    (sec : Section) : Option World :=
  ((engine.on world.dir).step cal codec snaps sec).map
    fun engine' =>
      let noted :=
        if sec.isCompact then
          world.archive
        else
          { world with
            recent :=
              world.recent ++
                engine'.inner.logged.drop
                  engine.inner.logged.length }
      { noted with
        dir := engine'.inner.dir
        engines := world.engines.insert pid engine' }

def step : WorldLabel → Option World
| .open_ pid dataDir =>
    if pid ∈ world.engines then
      none
    else
      match world.lock with
      | some _ => some world
      | none =>
          some (world.openLocked codec snaps pid dataDir)
| .engine pid sec =>
    match world.engines[pid]? with
    | none => none
    | some engine =>
        if sec.isReopen then
          none
        else
          world.section_ cal codec snaps pid engine sec
| .exit pid =>
    if pid ∈ world.engines then
      some
        { world with
          lock := none
          engines := world.engines.erase pid }
    else
      none
| .compact dataDir now later =>
    match world.lock with
    | some _ => some world
    | none =>
        match compactReadOnly codec snaps dataDir world.dir
            now later with
        | .error _ => some world
        | .ok dir => some { world.archive with dir := dir }

end World

end Kron

------------------------------------------------------------
-- What Is Read
------------------------------------------------------------

namespace Kron

/- The timer that an event is about. -/
def Event.timerId : Event → TimerId
| .timerCreated spec => spec.id
| .timerUpdated spec => spec.id
| .timerPaused timerId _ => timerId
| .timerResumed timerId _ => timerId
| .timerCancelled timerId _ => timerId
| .runDue timerId _ _ => timerId
| .runStarted timerId _ _ _ => timerId
| .runSkippedOverlap timerId _ _ _ => timerId
| .runSucceeded timerId _ _ _ => timerId
| .runFailed timerId _ _ _ _ => timerId
| .runRetrying timerId _ _ _ => timerId
| .runDead timerId _ _ => timerId

def Event.isRetrying : Event → Bool
| .runRetrying _ _ _ _ => true
| _ => false

/- The last elements of a list, all of them by default. -/
def lastOf
    {α : Type}
    (limit : Option Nat)
    (matching : List α) : List α :=
  match limit with
  | some limit => matching.drop (matching.length - limit)
  | none => matching

theorem map_lastOf
    {α β : Type}
    (limit : Option Nat)
    (matching : List α)
    (f : α → β) :
    lastOf limit (matching.map f) =
      (lastOf limit matching).map f := by
  cases limit with
  | none => rfl
  | some limit => simp [lastOf, List.map_drop]

/-
  `history`, before its entries become JSON values. Only the
  log is read, not the snapshot.
-/
def Ipc.history
    (codec : JsonCodec LogEntry)
    (dataDir : String)
    (dir : DataDir)
    (name : TimerId)
    (limit : Option Nat) :
    Except KronError (List LogEntry) :=
  (AppendOnlyLog.replay codec (joinPath dataDir aofName)
    (aofBytes dir)).map fun entries =>
      lastOf limit
        (entries.filter fun entry =>
          entry.event.timerId = name)

structure TimerSummary where
  id : TimerId
  state : TimerState
  fnName : Option String
  lastRunAt : Option DateTime
  lastDurationMs : Option UInt64
  lastStatus : Option String
  nextRunAt : Option DateTime
  retriesLast7d : UInt32
deriving DecidableEq, Repr

namespace EngineState

variable (s : EngineState)

/- The summary of a timer for `kron job status`. -/
def summary
    (id : TimerId) : Option TimerSummary :=
  s.states[id]?.map fun state =>
    { id := id
      state := state
      fnName := s.fnNames[id]?
      lastRunAt := s.lastRuns[id]?.map LastRunInfo.finishedAt
      lastDurationMs :=
        s.lastRuns[id]?.bind LastRunInfo.durationMs
      lastStatus := s.lastRuns[id]?.map LastRunInfo.status
      nextRunAt := s.nextRuns[id]?
      retriesLast7d := s.retries7d.getD id 0 }

/-
  `Engine::list`, and the list of the command line; the order
  of the ids is the one that is printed.
-/
def list : List TimerSummary :=
  s.specs.keys.filterMap s.summary

end EngineState

namespace TimerSummary

/-
  What a summary says about the past: all but the lifecycle
  state, the bound function and the next run, which belong
  to the process.
-/
def past
    (summary : TimerSummary) :
    TimerId × Option DateTime × Option UInt64 ×
      Option String × UInt32 :=
  (summary.id, summary.lastRunAt, summary.lastDurationMs,
    summary.lastStatus, summary.retriesLast7d)

end TimerSummary

end Kron

------------------------------------------------------------
-- Events About Known Timers
------------------------------------------------------------

namespace Kron

namespace EngineState

/-
  A timer has a lifecycle state when it has a spec, and only
  then, and a spec is stored under its own id.
-/
structure Listed
    (s : EngineState) : Prop where
  states : ∀ id, id ∈ s.states ↔ id ∈ s.specs
  named :
    ∀ (id : TimerId) (spec : TimerSpec),
      s.specs[id]? = some spec → spec.id = id

/- The event creates its timer, or the timer has a spec. -/
def Knows
    (s : EngineState)
    (event : Event) : Prop :=
  (∃ spec, event = .timerCreated spec) ∨
    event.timerId ∈ s.specs

/- Each entry is about a timer that is known when it comes. -/
def KnowsAll : EngineState → List LogEntry → Prop
| _, [] => True
| s, entry :: entries =>
    s.Knows entry.event ∧
      (s.apply entry.event).KnowsAll entries

variable {s t : EngineState}

theorem Listed.new :
    EngineState.new.Listed where
  states := by simp [EngineState.new]
  named := by simp [EngineState.new]

/- Lifecycle states may change, but not for which timers. -/
theorem Listed.congr
    (hListed : s.Listed)
    (hSpecs : t.specs = s.specs)
    (hStates : ∀ id, id ∈ t.states ↔ id ∈ s.states) :
    t.Listed where
  states := by
    intro id
    rw [hStates, hSpecs]
    exact hListed.states id
  named := by
    rw [hSpecs]
    exact hListed.named

/- A spec is stored together with a lifecycle state. -/
theorem Listed.store
    (hListed : s.Listed)
    (spec : TimerSpec)
    (hSpecs : t.specs = s.specs.insert spec.id spec)
    (hStates :
      ∀ id, id ∈ t.states ↔ spec.id = id ∨ id ∈ s.states) :
    t.Listed where
  states := by
    intro id
    rw [hStates, hSpecs, hListed.states,
      Std.ExtTreeMap.mem_insert,
      Std.LawfulEqOrd.compare_eq_iff_eq]
  named := by
    intro id other hOther
    rw [hSpecs, BTreeMap.get_insert] at hOther
    split at hOther
    · rename_i hEq
      cases hOther
      exact hEq
    · exact hListed.named id other hOther

/- An event about a known timer keeps the timers listed. -/
theorem Listed.apply
    {event : Event}
    (hListed : s.Listed)
    (hKnows : s.Knows event) :
    (s.apply event).Listed := by
  have hKnown :
      (∀ spec, event ≠ .timerCreated spec) →
        event.timerId ∈ s.states := by
    intro hNe
    rcases hKnows with ⟨spec, hEq⟩ | hMem
    · exact (hNe spec hEq).elim
    · exact (hListed.states _).mpr hMem
  cases event with
  | timerCreated spec =>
      refine hListed.store spec rfl ?_
      intro id
      simp only [EngineState.apply, setState,
        Std.ExtTreeMap.mem_insert,
        Std.LawfulEqOrd.compare_eq_iff_eq]
  | timerUpdated spec =>
      have hMem := hKnown (by simp)
      refine hListed.store spec rfl ?_
      intro id
      constructor
      · exact Or.inr
      · rintro (hEq | hIn)
        · rw [← hEq]
          exact hMem
        · exact hIn
  | runSkippedOverlap _ _ _ _ =>
      exact hListed.congr rfl (fun _ => Iff.rfl)
  | runFailed _ _ _ _ _ =>
      exact hListed.congr rfl (fun _ => Iff.rfl)
  | _ =>
      exact
        hListed.congr rfl
          (BTreeMap.mem_insert_iff_of_mem (hKnown (by simp)) _)

/- What is known depends on the specs alone. -/
theorem KnowsAll.congr
    {entries : List LogEntry}
    (hSpecs : s.specs = t.specs)
    (hKnows : s.KnowsAll entries) :
    t.KnowsAll entries := by
  induction entries generalizing s t with
  | nil => trivial
  | cons entry entries ih =>
      refine ⟨?_, ih ?_ hKnows.2⟩
      · unfold Knows
        rw [← hSpecs]
        exact hKnows.1
      · rw [apply_specs, apply_specs, hSpecs]

theorem KnowsAll.append
    {entries entries' : List LogEntry}
    (hKnows : s.KnowsAll entries)
    (hRest : (s.replay entries).KnowsAll entries') :
    s.KnowsAll (entries ++ entries') := by
  induction entries generalizing s with
  | nil => exact hRest
  | cons entry entries ih =>
      exact ⟨hKnows.1, ih hKnows.2 hRest⟩

theorem Listed.replay
    {entries : List LogEntry}
    (hListed : s.Listed)
    (hKnows : s.KnowsAll entries) :
    (s.replay entries).Listed := by
  induction entries generalizing s with
  | nil => exact hListed
  | cons entry entries ih =>
      exact ih (hListed.apply hKnows.1) hKnows.2

/- Binding a function to a timer with a spec. -/
theorem Listed.registerFunction
    {id : TimerId}
    (hListed : s.Listed)
    (hMem : id ∈ s.specs)
    (fnName : String) :
    (s.registerFunction id fnName).Listed := by
  have hStates : id ∈ s.states :=
    (hListed.states id).mpr hMem
  unfold EngineState.registerFunction
  simp only
  split
  · exact
      hListed.congr rfl (BTreeMap.mem_insert_iff_of_mem hStates _)
  · exact hListed.congr rfl (fun _ => Iff.rfl)

theorem Listed.markFunctionMissing
    {id : TimerId}
    (hListed : s.Listed)
    (hMem : id ∈ s.specs) :
    (s.markFunctionMissing id).Listed := by
  have hStates : id ∈ s.states :=
    (hListed.states id).mpr hMem
  unfold EngineState.markFunctionMissing
  simp only
  split
  · exact
      hListed.congr rfl (BTreeMap.mem_insert_iff_of_mem hStates _)
  · exact hListed.congr rfl (fun _ => Iff.rfl)

end EngineState

end Kron

------------------------------------------------------------
-- What A Section Writes
------------------------------------------------------------

namespace Kron

open AppendOnlyLog

/-
  The entries are logged and appended, and memory changes by
  them as far as replay decides it.
-/
structure Inner.Writes
    (codec : JsonCodec LogEntry)
    (inner : Inner)
    (entries : List LogEntry)
    (inner' : Inner) : Prop where
  logged :
    inner'.logged =
      inner.logged ++ entries.map LogEntry.event
  aof :
    aofBytes inner'.dir =
      aofBytes inner.dir ++ encodeAll codec entries
  snapshot :
    inner'.dir[snapshotName]? = inner.dir[snapshotName]?
  agrees : (inner.state.replay entries).Agrees inner'.state
  known : inner.state.KnowsAll entries
  listed : inner.state.Listed → inner'.state.Listed

theorem EngineState.Agrees.replay
    {s t : EngineState}
    (hAgrees : s.Agrees t)
    (entries : List LogEntry) :
    (s.replay entries).Agrees (t.replay entries) := by
  induction entries generalizing s t with
  | nil => exact hAgrees
  | cons entry entries ih =>
      exact ih (hAgrees.apply entry.event)

variable {cal : Calendar}
variable {codec : JsonCodec LogEntry}
variable {snaps : JsonCodec Snapshot}
variable {inner inner' inner'' : Inner}

namespace Inner.Writes

/- Nothing is logged. -/
theorem frame
    (hLogged : inner'.logged = inner.logged)
    (hDir : inner'.dir = inner.dir)
    (hAgrees : inner.state.Agrees inner'.state)
    (hListed : inner.state.Listed → inner'.state.Listed) :
    inner.Writes codec [] inner' where
  logged := by rw [hLogged, List.map_nil, List.append_nil]
  aof := by
    rw [hDir]
    exact (List.append_nil _).symm
  snapshot := by rw [hDir]
  agrees := hAgrees
  known := trivial
  listed := hListed

theorem refl
    (inner : Inner) :
    inner.Writes codec [] inner :=
  frame rfl rfl (.refl _) id

/- Only what belongs to the process changes. -/
theorem of_state
    (hLogged : inner'.logged = inner.logged)
    (hDir : inner'.dir = inner.dir)
    (hState : inner'.state = inner.state) :
    inner.Writes codec [] inner' := by
  refine frame hLogged hDir ?_ ?_
  · rw [hState]
    exact .refl _
  · rw [hState]
    exact id

theorem trans
    {entries entries' : List LogEntry}
    (hFirst : inner.Writes codec entries inner')
    (hSecond : inner'.Writes codec entries' inner'') :
    inner.Writes codec (entries ++ entries') inner'' where
  logged := by
    rw [hSecond.logged, hFirst.logged, List.map_append,
      List.append_assoc]
  aof := by
    rw [hSecond.aof, hFirst.aof, List.append_assoc]
    simp [encodeAll]
  snapshot := hSecond.snapshot.trans hFirst.snapshot
  agrees := by
    rw [EngineState.replay_append]
    exact (hFirst.agrees.replay entries').trans hSecond.agrees
  known :=
    hFirst.known.append
      (hSecond.known.congr hFirst.agrees.specs.symm)
  listed := fun hListed =>
    hSecond.listed (hFirst.listed hListed)

/- An event about a known timer is logged and applied. -/
theorem logApply
    {event : Event}
    {io : AppendIo}
    (hIo : io.failure = none)
    (hKnows : inner.state.Knows event) :
    inner.Writes codec [LogEntry.new event io.ts]
      (inner.logApply codec event io) where
  logged := rfl
  aof := by
    simp [Inner.logApply, Inner.logOnly, Inner.append,
      Inner.appended, hIo, aofBytes, openFile, encodeAll]
  snapshot := BTreeMap.get_insert_ne _ _ (by decide)
  agrees := .refl _
  known := ⟨hKnows, trivial⟩
  listed := fun hListed => hListed.apply hKnows

end Inner.Writes

/- The section writes some entries. -/
def Inner.Logs
    (codec : JsonCodec LogEntry)
    (inner inner' : Inner) : Prop :=
  ∃ entries, inner.Writes codec entries inner'

namespace Inner.Logs

theorem refl
    (inner : Inner) :
    inner.Logs codec inner :=
  ⟨[], .refl inner⟩

theorem trans
    (hFirst : inner.Logs codec inner')
    (hSecond : inner'.Logs codec inner'') :
    inner.Logs codec inner'' := by
  rcases hFirst with ⟨entries, hFirst⟩
  rcases hSecond with ⟨entries', hSecond⟩
  exact ⟨entries ++ entries', hFirst.trans hSecond⟩

theorem of_state
    (hLogged : inner'.logged = inner.logged)
    (hDir : inner'.dir = inner.dir)
    (hState : inner'.state = inner.state) :
    inner.Logs codec inner' :=
  ⟨[], .of_state hLogged hDir hState⟩

/- Specs are never removed. -/
theorem mem_specs
    {id : TimerId}
    (hLogs : inner.Logs codec inner')
    (hMem : id ∈ inner.state.specs) :
    id ∈ inner'.state.specs := by
  rcases hLogs with ⟨entries, hWrites⟩
  rw [← hWrites.agrees.specs]
  exact EngineState.mem_specs_replay hMem entries

theorem finishRun
    (hLogs : inner.Logs codec inner') :
    inner.Logs codec inner'.finishRun :=
  hLogs.trans (of_state rfl rfl rfl)

theorem pushEntry
    (hLogs : inner.Logs codec inner')
    (entry : ScheduledTimer) :
    inner.Logs codec (inner'.pushEntry entry) :=
  hLogs.trans (of_state rfl rfl rfl)

/- Next runs belong to the process. -/
theorem of_nextRuns
    {nextRuns : BTreeMap TimerId DateTime}
    {heap : TimerHeap}
    (hLogs : inner.Logs codec inner') :
    inner.Logs codec
      { inner' with
        state := { inner'.state with nextRuns := nextRuns }
        heap := heap } :=
  hLogs.trans
    ⟨[], .frame rfl rfl ⟨rfl, rfl, rfl, rfl⟩
      fun hListed => ⟨hListed.states, hListed.named⟩⟩

theorem dropNextRun
    (hLogs : inner.Logs codec inner')
    (spec : TimerSpec) :
    inner.Logs codec (Kron.dropNextRun inner' spec) := by
  unfold Kron.dropNextRun
  split
  · exact hLogs
  · exact hLogs.of_nextRuns

theorem logApply
    {event : Event}
    {io : AppendIo}
    (hIo : io.failure = none)
    (hLogs : inner.Logs codec inner')
    (hMem : event.timerId ∈ inner.state.specs) :
    inner.Logs codec (inner'.logApply codec event io) :=
  hLogs.trans ⟨_, .logApply hIo (.inr (hLogs.mem_specs hMem))⟩

theorem rescheduled
    {spec : TimerSpec}
    {from_ : DateTime}
    (hLogs : inner.Logs codec inner')
    (hNext : Rescheduled cal inner' spec from_ inner'') :
    inner.Logs codec inner'' := by
  cases hNext with
  | stopped _ => exact hLogs
  | pushed next _ _ => exact hLogs.of_nextRuns
  | cleared _ _ _ _ => exact hLogs.of_nextRuns

/- A registration logs the spec that it stores. -/
theorem scheduled
    {call : ScheduleCall}
    {result : Except KronError Unit}
    (hIo : call.io.failure = none)
    (hCall :
      ScheduleOutcome cal codec inner call inner' result) :
    inner.Logs codec inner' := by
  cases hCall with
  | stopped _ => exact refl _
  | notCreated failure _ hSome =>
      rw [hIo] at hSome
      cases hSome
  | notUpdated failure hSome =>
      rw [hIo] at hSome
      cases hSome
  | scheduled stored _ _ hStore hNext =>
      have hStored :
          inner.Logs codec stored ∧
            call.id ∈ stored.state.specs := by
        cases hStore with
        | known hSpec =>
            exact ⟨refl _, BTreeMap.mem_of_get hSpec⟩
        | created _ _ =>
            refine ⟨⟨_, .logApply hIo (.inl ⟨_, rfl⟩)⟩, ?_⟩
            exact Std.ExtTreeMap.mem_insert_self
        | updated old hSpec _ _ =>
            refine ⟨?_, Std.ExtTreeMap.mem_insert_self⟩
            have hUpdated :
                inner.Logs codec
                  (inner.logApply codec
                    (.timerUpdated (call.spec inner.state))
                    call.io) :=
              ⟨_, .logApply hIo
                (.inr (BTreeMap.mem_of_get hSpec))⟩
            exact hUpdated.of_nextRuns
      have hRegistered :
          inner.Logs codec
            (stored.register call.id call.fnName) :=
        hStored.1.trans
          ⟨[], .frame rfl rfl (.registerFunction _ _ _)
            fun hListed =>
              hListed.registerFunction hStored.2 _⟩
      cases hNext with
      | waiting _ => exact hRegistered
      | pushed _ next _ _ _ => exact hRegistered.of_nextRuns
      | none _ _ _ _ _ _ => exact hRegistered

/- The first section of a run. -/
theorem started
    {entry : ScheduledTimer}
    {io : StartIo}
    {run : Option Execution}
    (hFirst : io.first.failure = none)
    (hSecond : io.second.failure = none)
    (hStart :
      StartOutcome cal codec inner entry io inner' run) :
    inner.Logs codec inner' := by
  have hDue :
      entry.timerId ∈ inner.state.specs →
        inner.Logs codec
          ((inner.logApply codec (entry.dueEvent io)
            io.first).logApply codec (entry.startedEvent io)
            io.second) := by
    intro hMem
    exact (logApply hFirst (refl _) hMem).logApply hSecond hMem
  cases hStart with
  | noSpec _ => exact (refl _).finishRun
  | notSkipped _ _ hIo => exact (hIo hFirst).elim
  | skipped _ _ hSpec _ _ hNext =>
      exact
        ((logApply hFirst (refl _)
          (BTreeMap.mem_of_get hSpec)).rescheduled
          hNext).finishRun
  | notDue _ _ hIo => exact (hIo hFirst).elim
  | notStarted _ _ hIo => exact (hIo hSecond).elim
  | delayed _ _ hSpec _ _ =>
      exact hDue (BTreeMap.mem_of_get hSpec)
  | started _ _ _ hSpec _ _ _ hNext =>
      exact
        (hDue (BTreeMap.mem_of_get hSpec)).rescheduled hNext

/- The last section of a run whose timer has a spec. -/
theorem finished
    {run : Execution}
    {io : FinishIo}
    (hFirst : io.first.failure = none)
    (hSecond : io.second.failure = none)
    (hMem : run.spec.id ∈ inner.state.specs)
    (hFinish : FinishOutcome cal codec inner run io inner') :
    inner.Logs codec inner' := by
  cases hFinish with
  | missing _ =>
      have hDropped :
          inner.Logs codec (Kron.dropNextRun inner run.spec) :=
        (refl inner).dropNextRun run.spec
      have hMarked :
          (Kron.dropNextRun inner run.spec).Logs codec
            (finishMissing inner run) :=
        ⟨[], .frame rfl rfl (.markFunctionMissing _ _)
          fun hListed =>
            hListed.markFunctionMissing
              (hDropped.mem_specs hMem)⟩
      exact (hDropped.trans hMarked).finishRun
  | notSucceeded hIo => exact (hIo hFirst).elim
  | delayed _ _ hNext =>
      exact
        ((logApply hFirst (refl _) hMem).rescheduled
          hNext).finishRun
  | succeeded _ =>
      exact (logApply hFirst (refl _) hMem).finishRun
  | notFailed _ _ hIo => exact (hIo hFirst).elim
  | notRetrying _ _ _ _ hIo => exact (hIo hSecond).elim
  | retryStopped _ _ _ _ _ =>
      exact
        (((logApply hFirst (refl _) hMem).dropNextRun
          run.spec).logApply hSecond hMem).finishRun
  | retrying _ _ _ _ _ =>
      exact
        ((((logApply hFirst (refl _) hMem).dropNextRun
          run.spec).logApply hSecond hMem).pushEntry
          _).finishRun
  | notDead _ _ _ hIo => exact (hIo hSecond).elim
  | deadDelayed _ _ _ _ _ _ hNext =>
      exact
        (((logApply hFirst (refl _) hMem).logApply hSecond
          hMem).rescheduled hNext).finishRun
  | dead _ _ _ _ =>
      exact
        ((logApply hFirst (refl _) hMem).logApply hSecond
          hMem).finishRun

end Inner.Logs

end Kron

namespace Kron

variable {cal : Calendar}
variable {codec : JsonCodec LogEntry}
variable {snaps : JsonCodec Snapshot}

/- A run that is executing is of a timer with a spec. -/
theorem Engine.WellFormed.mem_specs_of_executing
    {engine : Engine}
    (hWell : engine.WellFormed)
    {run : Execution}
    (hMem : run ∈ engine.executing) :
    run.spec.id ∈ engine.inner.state.specs := by
  have hView := hWell.views run.timerId
  rcases hView.runs run (mem_runsOf.mpr ⟨hMem, rfl⟩) with
    ⟨hRegistered, hId, _⟩
  rcases hView.spec hRegistered with ⟨spec, hSpec, _⟩
  rw [hId]
  exact BTreeMap.mem_of_get hSpec

/-
  An engine that is not opened anew writes what it logs; a
  compaction writes the snapshot instead.
-/
theorem writes_of_step
    {engine engine' : Engine}
    {sec : Section}
    (hWell : engine.WellFormed)
    (hSucceeds : sec.Succeeds)
    (hReopen : sec.isReopen = false)
    (hCompact : sec.isCompact = false)
    (hStep :
      engine.step cal codec snaps sec = some engine') :
    engine.inner.Logs codec engine'.inner := by
  cases sec with
  | schedule call =>
      rcases Option.map_eq_some_iff.mp hStep with
        ⟨⟨inner', result⟩, hCall, hEq⟩
      rw [← hEq]
      exact
        Inner.Logs.scheduled hSucceeds
          (scheduleOutcome_of_eq_some hCall)
  | start =>
      cases hStep
      unfold Engine.start
      split
      · exact .refl _
      · exact .of_state rfl rfl rfl
  | dispatch now =>
      simp only [Engine.step, Engine.dispatch] at hStep
      split at hStep
      · split at hStep
        · cases hStep
          exact .refl _
        · cases hStep
          exact .of_state rfl rfl rfl
      · cases hStep
  | spawn i =>
      simp only [Engine.step, Engine.spawn] at hStep
      split at hStep
      · split at hStep
        · cases hStep
        · split at hStep
          · cases hStep
            exact .refl _
          · split at hStep
            · cases hStep
              exact .of_state rfl rfl rfl
            · cases hStep
      · cases hStep
  | runStart i io =>
      simp only [Engine.step] at hStep
      split at hStep
      · cases hStep
      · rename_i entry _
        rcases Option.map_eq_some_iff.mp hStep with
          ⟨⟨inner', run⟩, hStart, hEq⟩
        rw [← hEq]
        have hClear :
            engine.inner.Logs codec
              (engine.inner.clearNextRun entry.timerId) :=
          Inner.Logs.of_nextRuns (.refl engine.inner)
        exact
          hClear.trans
            (Inner.Logs.started hSucceeds.1 hSucceeds.2
              (startOutcome_of_eq_some hStart))
  | runFinish i io =>
      simp only [Engine.step] at hStep
      split at hStep
      · cases hStep
      · rename_i run hRun
        rcases Option.map_eq_some_iff.mp hStep with
          ⟨inner', hFinish, hEq⟩
        rw [← hEq]
        exact
          Inner.Logs.finished hSucceeds.1 hSucceeds.2
            (hWell.mem_specs_of_executing
              (List.mem_of_getElem? hRun))
            (finishOutcome_of_eq_some hFinish)
  | compact now later => cases hCompact
  | reopen dataDir dir => cases hReopen
  | shutdownBegin =>
      cases hStep
      unfold Engine.shutdownBegin
      split
      · exact .refl _
      · split
        · exact .of_state rfl rfl rfl
        · exact .of_state rfl rfl rfl
  | shutdownCheck =>
      simp only [Engine.step] at hStep
      split at hStep
      · cases hStep
        exact .refl _
      · cases hStep
  | shutdownTimeout =>
      simp only [Engine.step] at hStep
      split at hStep
      · cases hStep
        exact .refl _
      · cases hStep
  | shutdownEnd =>
      simp only [Engine.step] at hStep
      split at hStep
      · cases hStep
        exact .of_state rfl rfl rfl
      · cases hStep

end Kron

------------------------------------------------------------
-- What A Directory Stores
------------------------------------------------------------

namespace Kron

open AppendOnlyLog
open FileSystem

/- The events in their order, on a new state. -/
def replayed
    (events : List Event) : EngineState :=
  events.foldl EngineState.apply EngineState.new

variable (codec : JsonCodec LogEntry)
variable (snaps : JsonCodec Snapshot)

/-
  Recovery starts from what the archived events amount to,
  and the log holds the recent ones, entry by entry.
-/
structure StoredAs
    (dir : DataDir)
    (archived recent : List Event)
    (base : EngineState)
    (entries : List LogEntry) : Prop where
  hBase :
    ∀ dataDir, recoveryBase snaps dataDir dir = .ok (base, 0)
  hAgrees : (replayed archived).Agrees base
  hListed : base.Listed
  hKnows : base.KnowsAll entries
  hAof : aofBytes dir = encodeAll codec entries
  hEvents : entries.map LogEntry.event = recent

/- The directory stores the events. -/
def Stored
    (dir : DataDir)
    (archived recent : List Event) : Prop :=
  ∃ base entries,
    StoredAs codec snaps dir archived recent base entries

variable {codec snaps}
variable {dir dir' : DataDir}
variable {archived recent : List Event}

theorem replayed_append_map
    (events : List Event)
    (entries : List LogEntry) :
    replayed (events ++ entries.map LogEntry.event) =
      (replayed events).replay entries := by
  unfold replayed EngineState.replay
  rw [List.foldl_append, List.foldl_map]

/- The snapshot and the log after a compaction. -/
theorem files_of_compact
    (snaps : JsonCodec Snapshot)
    (dir : DataDir)
    (state : EngineState)
    (now later : DateTime) :
    (runAll dir (Kron.compact snaps dir state now
        later))[snapshotName]? =
        some
          (snapshotBytes snaps { state with fnNames := ∅ } 0
            later) ∧
      aofBytes
          (runAll dir
            (Kron.compact snaps dir state now later)) =
        [] := by
  have hAll :
      runAll dir (Kron.compact snaps dir state now later) =
        crash dir (Kron.compact snaps dir state now later)
          7 := by
    unfold crash
    rw [List.take_of_length_le]
    unfold Kron.compact writeSnapshotAtomic rotateAof
      replace
    split <;> simp
  have hLength : ¬ 7 < compactLength dir := by
    unfold compactLength
    split <;> omega
  rw [hAll]
  constructor
  · rw [snapshot_crash, if_neg (by omega), if_neg hLength]
    rfl
  · rw [aofBytes_crash, if_neg (by omega)]

namespace Stored

theorem empty :
    Stored codec snaps ∅ [] [] :=
  ⟨EngineState.new, [],
    { hBase := fun _ => rfl
      hAgrees := .refl _
      hListed := .new
      hKnows := trivial
      hAof := rfl
      hEvents := rfl }⟩

/- What recovery returns. -/
theorem load
    (hWrites : ∀ e, codec.WritesLine e)
    (hStored : Stored codec snaps dir archived recent)
    (dataDir : String) :
    ∃ s,
      loadState codec snaps dataDir dir = .ok s ∧
        (replayed (archived ++ recent)).Agrees s ∧
        s.Listed := by
  rcases hStored with ⟨base, entries, h⟩
  refine ⟨base.replay entries, ?_, ?_, ?_⟩
  · rw [loadState_eq_ok_iff]
    refine ⟨base, 0, entries, h.hBase dataDir, ?_, rfl⟩
    rw [entriesAfter_of_le (Nat.zero_le _), List.drop_zero,
      h.hAof]
    exact replay_encodeAll _ fun e _ => hWrites e
  · rw [← h.hEvents, replayed_append_map]
    exact h.hAgrees.replay entries
  · exact h.hListed.replay h.hKnows

/- What the history of a timer is. -/
theorem history
    (hWrites : ∀ e, codec.WritesLine e)
    (hStored : Stored codec snaps dir archived recent)
    (name : TimerId)
    (limit : Option Nat) :
    ∃ entries,
      (∀ dataDir,
        Ipc.history codec dataDir dir name limit =
          .ok entries) ∧
        entries.map LogEntry.event =
          lastOf limit
            (recent.filter fun event =>
              event.timerId = name) := by
  rcases hStored with ⟨base, entries, h⟩
  refine
    ⟨lastOf limit
      (entries.filter fun entry => entry.event.timerId = name),
      ?_, ?_⟩
  · intro dataDir
    unfold Ipc.history
    rw [h.hAof, replay_encodeAll _ fun e _ => hWrites e]
    rfl
  · rw [← h.hEvents, List.filter_map]
    exact (map_lastOf _ _ _).symm

/- Only the snapshot and the log matter. -/
theorem of_files
    (hStored : Stored codec snaps dir archived recent)
    (hSnapshot : dir'[snapshotName]? = dir[snapshotName]?)
    (hAof : aofBytes dir' = aofBytes dir) :
    Stored codec snaps dir' archived recent := by
  rcases hStored with ⟨base, entries, h⟩
  refine ⟨base, entries, { h with hBase := ?_, hAof := ?_ }⟩
  · intro dataDir
    rw [recoveryBase_congr hSnapshot]
    exact h.hBase dataDir
  · rw [hAof]
    exact h.hAof

/- The log is created when it is first read. -/
theorem insert_aof
    (hStored : Stored codec snaps dir archived recent) :
    Stored codec snaps (dir.insert aofName (aofBytes dir))
      archived recent := by
  apply hStored.of_files
  · exact BTreeMap.get_insert_ne _ _ (by decide)
  · simp [aofBytes, openFile]

/- Entries are appended. -/
theorem append
    {entries : List LogEntry}
    (hStored : Stored codec snaps dir archived recent)
    (hSnapshot : dir'[snapshotName]? = dir[snapshotName]?)
    (hAof :
      aofBytes dir' = aofBytes dir ++ encodeAll codec entries)
    (hKnows :
      (replayed (archived ++ recent)).KnowsAll entries) :
    Stored codec snaps dir' archived
      (recent ++ entries.map LogEntry.event) := by
  rcases hStored with ⟨base, before, h⟩
  refine ⟨base, before ++ entries, ?_⟩
  refine
    { hBase := ?_
      hAgrees := h.hAgrees
      hListed := h.hListed
      hKnows := ?_
      hAof := ?_
      hEvents := ?_ }
  · intro dataDir
    rw [recoveryBase_congr hSnapshot]
    exact h.hBase dataDir
  · rw [← h.hEvents, replayed_append_map] at hKnows
    exact
      h.hKnows.append
        (hKnows.congr (h.hAgrees.replay before).specs)
  · rw [hAof, h.hAof]
    simp [encodeAll]
  · rw [List.map_append, h.hEvents]

/- A compaction moves the record into the snapshot. -/
theorem compact
    {state : EngineState}
    (hSnaps : snaps.LosslessPretty)
    (hAgrees : (replayed (archived ++ recent)).Agrees state)
    (hListed : state.Listed)
    (dir : DataDir)
    (now later : DateTime) :
    Stored codec snaps
      (runAll dir (Kron.compact snaps dir state now later))
      (archived ++ recent) [] := by
  have hFiles := files_of_compact snaps dir state now later
  refine ⟨{ state with fnNames := ∅ }, [], ?_⟩
  refine
    { hBase := ?_
      hAgrees := ?_
      hListed := ⟨hListed.states, hListed.named⟩
      hKnows := trivial
      hAof := hFiles.2
      hEvents := rfl }
  · intro dataDir
    exact
      recoveryBase_of_snapshotBytes hSnaps rfl hFiles.1
  · exact hAgrees.trans ⟨rfl, rfl, rfl, rfl⟩

end Stored

end Kron

------------------------------------------------------------
-- One History
------------------------------------------------------------

namespace Kron

/- The appends of the step succeed. -/
def WorldLabel.Succeeds : WorldLabel → Prop
| .engine _ sec => sec.Succeeds
| _ => True

/- An engine remembers the events. -/
structure Engine.Remembers
    (engine : Engine)
    (events : List Event) : Prop where
  agrees : (replayed events).Agrees engine.inner.state
  listed : engine.inner.state.Listed
  wellFormed : engine.WellFormed

/-
  The lock belongs to the one engine that is alive; the
  directory stores the record, and the engine remembers it.
-/
structure World.Sound
    (codec : JsonCodec LogEntry)
    (snaps : JsonCodec Snapshot)
    (world : World) : Prop where
  owned :
    ∀ (pid : Nat) (engine : Engine),
      world.engines[pid]? = some engine →
        world.lock = some pid
  stored :
    Stored codec snaps world.dir world.archived world.recent
  remembers :
    ∀ (pid : Nat) (engine : Engine),
      world.engines[pid]? = some engine →
        engine.Remembers world.record

variable {cal : Calendar}
variable {codec : JsonCodec LogEntry}
variable {snaps : JsonCodec Snapshot}

/- Opening keeps the timers listed. -/
theorem EngineState.Listed.opened
    {s : EngineState}
    (hListed : s.Listed)
    (dir : DataDir) :
    (Inner.opened dir s).state.Listed := by
  have hFold :
      ∀ (keys : List TimerId)
        (states : BTreeMap TimerId TimerState),
        (∀ id ∈ keys, id ∈ states) →
          ∀ id,
            id ∈ keys.foldl
                (fun states id => states.insert id .orphaned)
                states ↔
              id ∈ states := by
    intro keys
    induction keys with
    | nil => exact fun _ _ _ => Iff.rfl
    | cons key keys ih =>
        intro states hKeys id
        have hKey := hKeys key List.mem_cons_self
        have hIff :=
          BTreeMap.mem_insert_iff_of_mem hKey
            TimerState.orphaned
        rw [List.foldl_cons, ih]
        · exact hIff id
        · intro k hMem
          rw [hIff]
          exact hKeys k (List.mem_cons_of_mem _ hMem)
  refine hListed.congr rfl (hFold _ _ ?_)
  intro id hMem
  exact
    (hListed.states id).mpr (Std.ExtTreeMap.mem_keys.mp hMem)

namespace World.Sound

variable {world world' : World}

theorem init :
    World.init.Sound codec snaps where
  owned := by
    intro pid engine hEngine
    simp [World.init] at hEngine
  stored := .empty
  remembers := by
    intro pid engine hEngine
    simp [World.init] at hEngine

/- Without the lock there is no engine. -/
theorem no_engine
    (hSound : world.Sound codec snaps)
    (hLock : world.lock = none)
    (pid : Nat) :
    world.engines[pid]? = none := by
  rw [Option.eq_none_iff_forall_ne_some]
  intro engine hEngine
  have hOwned := hSound.owned pid engine hEngine
  rw [hLock] at hOwned
  cases hOwned

/- An engine opens a directory that is free. -/
theorem openLocked
    (hWrites : ∀ e, codec.WritesLine e)
    (hSound : world.Sound codec snaps)
    (hLock : world.lock = none)
    (pid : Nat)
    (dataDir : String) :
    (world.openLocked codec snaps pid dataDir).Sound codec
      snaps := by
  unfold World.openLocked
  split
  · exact
      { owned := hSound.owned
        stored := hSound.stored.insert_aof
        remembers := hSound.remembers }
  · rename_i inner hOpen
    rcases hSound.stored.load hWrites dataDir with
      ⟨s, hLoad, hAgrees, hListed⟩
    have hInner : inner = Inner.opened world.dir s := by
      unfold openEngine at hOpen
      simp only [hLoad, Except.ok.injEq] at hOpen
      exact hOpen.symm
    refine { owned := ?_, stored := ?_, remembers := ?_ }
    · intro pid' engine hEngine
      rw [BTreeMap.get_insert,
        hSound.no_engine hLock pid'] at hEngine
      split at hEngine
      · rename_i hEq
        exact congrArg some hEq
      · cases hEngine
    · rw [hInner]
      exact hSound.stored.insert_aof
    · intro pid' engine hEngine
      rw [BTreeMap.get_insert] at hEngine
      split at hEngine
      · cases hEngine
        have hWell := wellFormed_of_openEngine hOpen []
        rw [hInner] at hWell ⊢
        exact
          { agrees := hAgrees.trans ⟨rfl, rfl, rfl, rfl⟩
            listed := hListed.opened world.dir
            wellFormed := hWell }
      · exact hSound.remembers pid' engine hEngine

/- The engine that is alive takes a step. -/
theorem replaceEngine
    {pid : Nat}
    {engine engine' : Engine}
    (hSound : world.Sound codec snaps)
    (hEngine : world.engines[pid]? = some engine)
    {noted : World}
    (hLock : noted.lock = world.lock)
    (hStored :
      Stored codec snaps engine'.inner.dir noted.archived
        noted.recent)
    (hRemembers : engine'.Remembers noted.record) :
    World.Sound codec snaps
      { noted with
        dir := engine'.inner.dir
        engines := world.engines.insert pid engine' } := by
  have hOwned := hSound.owned pid engine hEngine
  refine
    { owned := ?_, stored := hStored, remembers := ?_ }
  · intro pid' other hOther
    rw [BTreeMap.get_insert] at hOther
    split at hOther
    · rename_i hEq
      rw [← hEq, hLock]
      exact hOwned
    · rw [hLock]
      exact hSound.owned pid' other hOther
  · intro pid' other hOther
    rw [BTreeMap.get_insert] at hOther
    split at hOther
    · cases hOther
      exact hRemembers
    · rename_i hNe
      -- only one engine holds the lock
      have hOther := hSound.owned pid' other hOther
      rw [hOwned] at hOther
      exact (hNe (Option.some.inj hOther)).elim

/- A section of the engine that is alive. -/
theorem section_
    {pid : Nat}
    {engine : Engine}
    {sec : Section}
    (hSnaps : snaps.LosslessPretty)
    (hSound : world.Sound codec snaps)
    (hEngine : world.engines[pid]? = some engine)
    (hSucceeds : sec.Succeeds)
    (hReopen : sec.isReopen = false)
    (hStep :
      world.section_ cal codec snaps pid engine sec =
        some world') :
    world'.Sound codec snaps := by
  rcases Option.map_eq_some_iff.mp hStep with
    ⟨engine', hTake, hEq⟩
  have hMemory := hSound.remembers pid engine hEngine
  have hWell : (engine.on world.dir).WellFormed :=
    ⟨hMemory.wellFormed.views, hMemory.wellFormed.idle⟩
  rw [← hEq]
  cases hCompact : sec.isCompact with
  | true =>
      cases sec with
      | compact now later =>
          cases hTake
          have hRecord :
              world.archive.record = world.record :=
            List.append_nil _
          refine hSound.replaceEngine hEngine rfl ?_ ?_
          · exact
              .compact hSnaps hMemory.agrees hMemory.listed
                world.dir now later
          · simp only [if_pos]
            rw [hRecord]
            exact
              { agrees := hMemory.agrees
                listed := hMemory.listed
                wellFormed :=
                  ⟨hWell.views, hWell.idle⟩ }
      | _ => cases hCompact
  | false =>
      rcases writes_of_step hWell hSucceeds hReopen hCompact
          hTake with
        ⟨entries, hWritten⟩
      have hDrop :
          engine'.inner.logged.drop
              engine.inner.logged.length =
            entries.map LogEntry.event := by
        rw [hWritten.logged]
        exact List.drop_left
      have hRecord :
          (replayed
            (world.record ++
              entries.map LogEntry.event)).Agrees
            engine'.inner.state := by
        rw [replayed_append_map]
        exact
          (hMemory.agrees.replay entries).trans
            hWritten.agrees
      refine hSound.replaceEngine hEngine rfl ?_ ?_
      · simp only [hDrop, Bool.false_eq_true, if_false]
        exact
          hSound.stored.append hWritten.snapshot
            hWritten.aof
            (hWritten.known.congr hMemory.agrees.specs.symm)
      · simp only [hDrop, Bool.false_eq_true, if_false,
          World.record]
        rw [← List.append_assoc]
        exact
          { agrees := hRecord
            listed := hWritten.listed hMemory.listed
            wellFormed := hWell.step hTake }

/- A process ends, and the system frees its lock. -/
theorem exit
    {pid : Nat}
    (hSound : world.Sound codec snaps)
    (hMem : pid ∈ world.engines) :
    World.Sound codec snaps
      { world with
        lock := none
        engines := world.engines.erase pid } := by
  have hNone :
      ∀ pid' : Nat,
        (world.engines.erase pid)[pid']? = none := by
    intro pid'
    rw [BTreeMap.get_erase]
    split
    · rfl
    · rename_i hNe
      rw [Option.eq_none_iff_forall_ne_some]
      intro other hOther
      have hOwned :=
        hSound.owned pid _
          (Std.ExtTreeMap.getElem?_eq_some_getElem hMem)
      rw [hSound.owned pid' other hOther] at hOwned
      exact hNe (Option.some.inj hOwned).symm
  refine
    { owned := ?_
      stored := hSound.stored
      remembers := ?_ }
  · intro pid' engine hEngine
    rw [hNone pid'] at hEngine
    cases hEngine
  · intro pid' engine hEngine
    rw [hNone pid'] at hEngine
    cases hEngine

/- A compaction without an engine. -/
theorem compactReadOnly
    {dataDir : String}
    {now later : DateTime}
    {dir : DataDir}
    (hWrites : ∀ e, codec.WritesLine e)
    (hSnaps : snaps.LosslessPretty)
    (hSound : world.Sound codec snaps)
    (hLock : world.lock = none)
    (hCompact :
      Kron.compactReadOnly codec snaps dataDir world.dir now
        later = .ok dir) :
    World.Sound codec snaps
      { world.archive with dir := dir } := by
  rcases hSound.stored.load hWrites dataDir with
    ⟨s, hLoad, hAgrees, hListed⟩
  unfold Kron.compactReadOnly at hCompact
  simp only [hLoad, Except.ok.injEq] at hCompact
  refine
    { owned := hSound.owned
      stored := ?_
      remembers := ?_ }
  · rw [← hCompact]
    exact .compact hSnaps hAgrees hListed _ now later
  · intro pid engine hEngine
    have hNone := hSound.no_engine hLock pid
    rw [show world.archive.engines = world.engines from rfl,
      hNone] at hEngine
    cases hEngine

/- One step of any process. -/
theorem step
    {label : WorldLabel}
    (hWrites : ∀ e, codec.WritesLine e)
    (hSnaps : snaps.LosslessPretty)
    (hSound : world.Sound codec snaps)
    (hSucceeds : label.Succeeds)
    (hStep :
      world.step cal codec snaps label = some world') :
    world'.Sound codec snaps := by
  cases label with
  | open_ pid dataDir =>
      simp only [World.step] at hStep
      split at hStep
      · cases hStep
      · split at hStep
        · cases hStep
          exact hSound
        · rename_i hLock
          cases hStep
          exact hSound.openLocked hWrites hLock pid dataDir
  | engine pid sec =>
      simp only [World.step] at hStep
      split at hStep
      · cases hStep
      · rename_i engine hEngine
        split at hStep
        · cases hStep
        · rename_i hReopen
          exact
            hSound.section_ hSnaps hEngine hSucceeds
              (Bool.eq_false_iff.mpr hReopen) hStep
  | exit pid =>
      simp only [World.step] at hStep
      split at hStep
      · rename_i hMem
        cases hStep
        exact hSound.exit hMem
      · cases hStep
  | compact dataDir now later =>
      simp only [World.step] at hStep
      split at hStep
      · cases hStep
        exact hSound
      · rename_i hLock
        split at hStep
        · cases hStep
          exact hSound
        · rename_i dir hCompact
          cases hStep
          exact
            hSound.compactReadOnly hWrites hSnaps hLock
              hCompact

/- A run of processes. -/
theorem run
    {labels : List WorldLabel}
    (hWrites : ∀ e, codec.WritesLine e)
    (hSnaps : snaps.LosslessPretty)
    (hSound : world.Sound codec snaps)
    (hSucceeds : ∀ label ∈ labels, label.Succeeds)
    (hRun :
      Machine.run (World.step cal codec snaps) world labels =
        some world') :
    world'.Sound codec snaps := by
  have hMeets :
      Machine.Meets (World.step cal codec snaps)
        (fun _ label => label.Succeeds) world labels := by
    apply Machine.meets_of_forall
    intro label hMem _
    exact hSucceeds label hMem
  refine
    Machine.run_invariant
      (fun w => w.Sound codec snaps) ?_ hSound hMeets hRun
  intro w label w' hSound hLabel hTake
  exact hSound.step hWrites hSnaps hLabel hTake

end World.Sound

end Kron

------------------------------------------------------------
-- Summaries And The Record
------------------------------------------------------------

namespace Kron

namespace EngineState

variable {s t : EngineState}

/- Listed timers, and no others, have a summary. -/
theorem Listed.isSome_summary
    (hListed : s.Listed)
    (id : TimerId) :
    (s.summary id).isSome ↔ id ∈ s.specs := by
  unfold summary
  rw [Option.isSome_map,
    Std.ExtTreeMap.isSome_getElem?_iff_mem]
  exact hListed.states id

/- The past of a timer is in what replay decides. -/
theorem Agrees.summary_past
    (hAgrees : s.Agrees t)
    (hs : s.Listed)
    (ht : t.Listed)
    (id : TimerId) :
    (s.summary id).map TimerSummary.past =
      (t.summary id).map TimerSummary.past := by
  have hSame :
      (s.summary id).isSome ↔ (t.summary id).isSome := by
    rw [hs.isSome_summary, ht.isSome_summary, hAgrees.specs]
  unfold summary at hSame ⊢
  cases hFirst : s.states[id]? with
  | none =>
      cases hSecond : t.states[id]? with
      | none => rfl
      | some _ => simp [hFirst, hSecond] at hSame
  | some _ =>
      cases hSecond : t.states[id]? with
      | none => simp [hFirst, hSecond] at hSame
      | some _ =>
          simp [TimerSummary.past, hAgrees.lastRuns,
            hAgrees.retries7d]

theorem Agrees.list_past
    (hAgrees : s.Agrees t)
    (hs : s.Listed)
    (ht : t.Listed) :
    s.list.map TimerSummary.past =
      t.list.map TimerSummary.past := by
  unfold list
  rw [List.map_filterMap, List.map_filterMap, hAgrees.specs]
  apply List.filterMap_congr
  intro id _
  exact hAgrees.summary_past hs ht id

/- A retry of the timer counts once. -/
theorem retries_apply
    (s : EngineState)
    (event : Event)
    (id : TimerId) :
    (s.apply event).retries7d.getD id 0 =
      s.retries7d.getD id 0 +
        if event.isRetrying ∧ event.timerId = id then
          1
        else
          0 := by
  cases event with
  | runRetrying timerId runId attempt nextRetryAt =>
      simp only [apply, countRetry, setState,
        Event.isRetrying, Event.timerId, true_and,
        Std.ExtTreeMap.getD_insert,
        Std.LawfulEqOrd.compare_eq_iff_eq]
      split
      · rename_i hEq
        rw [hEq]
      · exact (UInt32.add_zero _).symm
  | _ =>
      simp [apply, setState, setLastRun, clearRetry,
        Event.isRetrying]

theorem retries_foldl
    (s : EngineState)
    (events : List Event)
    (id : TimerId) :
    (events.foldl EngineState.apply s).retries7d.getD id 0 =
      s.retries7d.getD id 0 +
        UInt32.ofNat
          (events.countP fun event =>
            event.isRetrying ∧ event.timerId = id) := by
  induction events generalizing s with
  | nil => exact (UInt32.add_zero _).symm
  | cons event events ih =>
      rw [List.foldl_cons, ih, retries_apply,
        List.countP_cons, UInt32.add_assoc]
      congr 1
      rw [UInt32.ofNat_add, UInt32.add_comm]
      congr 1
      simp only [decide_eq_true_eq]
      split
      · rfl
      · rfl

/- The timers with a spec are those that were registered. -/
theorem mem_specs_foldl
    (s : EngineState)
    (events : List Event)
    (id : TimerId) :
    id ∈ (events.foldl EngineState.apply s).specs ↔
      id ∈ s.specs ∨
        ∃ event ∈ events, ∃ spec,
          event.spec? = some spec ∧ spec.id = id := by
  induction events generalizing s with
  | nil => simp
  | cons event events ih =>
      rw [List.foldl_cons, ih, apply_specs]
      cases hSpec : event.spec? with
      | none => simp [hSpec]
      | some spec =>
          simp only [Std.ExtTreeMap.mem_insert,
            Std.LawfulEqOrd.compare_eq_iff_eq,
            List.exists_mem_cons_iff, hSpec,
            Option.some.injEq, exists_eq_left']
          tauto

end EngineState

end Kron

------------------------------------------------------------
-- Main Results
------------------------------------------------------------

namespace Kron

/-
  At most one engine is alive, and what is recovered from the
  directory, like the memory of the engine, agrees with all
  events ever logged.
-/
theorem directory_is_one_history
    (cal : Calendar)
    (codec : JsonCodec LogEntry)
    (snaps : JsonCodec Snapshot)
    (hWrites : ∀ e, codec.WritesLine e)
    (hSnaps : snaps.LosslessPretty)
    (labels : List WorldLabel)
    (hSucceeds : ∀ label ∈ labels, label.Succeeds)
    (world : World)
    (hRun :
      Machine.run (World.step cal codec snaps) World.init
        labels = some world) :
    (∀ p ∈ world.engines, ∀ q ∈ world.engines, p = q) ∧
      (∀ dataDir, ∃ s,
        loadState codec snaps dataDir world.dir = .ok s ∧
          (replayed world.record).Agrees s) ∧
      ∀ (pid : Nat) (engine : Engine),
        world.engines[pid]? = some engine →
          (replayed world.record).Agrees
            engine.inner.state := by
  have hSound : world.Sound codec snaps :=
    World.Sound.init.run hWrites hSnaps hSucceeds hRun
  have hOwned :
      ∀ p ∈ world.engines, world.lock = some p := by
    intro p hMem
    exact
      hSound.owned p _
        (Std.ExtTreeMap.getElem?_eq_some_getElem hMem)
  refine ⟨?_, ?_, ?_⟩
  · intro p hp q hq
    have hSame := (hOwned p hp).symm.trans (hOwned q hq)
    exact Option.some.inj hSame
  · intro dataDir
    rcases hSound.stored.load hWrites dataDir with
      ⟨s, hLoad, hAgrees, _⟩
    exact ⟨s, hLoad, hAgrees⟩
  · intro pid engine hEngine
    exact (hSound.remembers pid engine hEngine).agrees

/- The engine holds the lock while a second one is refused. -/
def registeredWorld : List WorldLabel :=
  [.open_ 1 "/data",
    .engine 1 (.schedule (callAt (everyMinute "a") 0)),
    .open_ 2 "/data"]

theorem registeredWorld_succeeds :
    ∀ label ∈ registeredWorld, label.Succeeds := by
  simp [registeredWorld, WorldLabel.Succeeds,
    Section.Succeeds, callAt, appendAt]

theorem registeredWorld_run :
    ∃ world,
      Machine.run
          (World.step utcCalendar createdCodec snapshotCodec)
          World.init registeredWorld = some world ∧
        world.recent = [.timerCreated (everyMinute "a")] ∧
        world.archived = [] ∧
        (world.engines[1]?).isSome := by
  have hEval :
      ∀ codec snaps,
        (Machine.run (World.step utcCalendar codec snaps)
          World.init registeredWorld).map
            (fun w =>
              (w.recent, w.archived,
                (w.engines[1]?).isSome)) =
          some
            ([.timerCreated (everyMinute "a")], [],
              true) := by
    intro codec snaps
    cbv
  rcases Option.map_eq_some_iff.mp
      (hEval createdCodec snapshotCodec) with
    ⟨world, hRun, hEq⟩
  simp only [Prod.mk.injEq] at hEq
  exact ⟨world, hRun, hEq⟩

theorem directory_is_one_history_registered :
    ∃ world s,
      Machine.run
          (World.step utcCalendar createdCodec snapshotCodec)
          World.init registeredWorld = some world ∧
        loadState createdCodec snapshotCodec "/data"
            world.dir = .ok s ∧
        s.specs["a"]? = some (everyMinute "a") ∧
        2 ∉ world.engines := by
  rcases registeredWorld_run with
    ⟨world, hRun, hRecent, hArchived, hAlive⟩
  rcases directory_is_one_history utcCalendar createdCodec
      snapshotCodec createdCodec_writesLine
      (tableCodec_losslessPretty snapshotRows_ok)
      registeredWorld registeredWorld_succeeds world
      hRun with
    ⟨hOne, hLoad, _⟩
  rcases hLoad "/data" with ⟨s, hLoad, hAgrees⟩
  refine ⟨world, s, hRun, hLoad, ?_, ?_⟩
  · rw [← hAgrees.specs]
    simp [World.record, hRecent, hArchived, replayed,
      EngineState.apply, everyMinute]
  · intro hMem
    have hFirst : 1 ∈ world.engines :=
      Std.ExtTreeMap.isSome_getElem?_iff_mem.mp hAlive
    exact absurd (hOne 1 hFirst 2 hMem) (by decide)

/-
  A status is found for the timers that were ever registered,
  and `retries_last_7d` counts all their retries, however
  long ago.
-/
theorem status_of_record
    (cal : Calendar)
    (codec : JsonCodec LogEntry)
    (snaps : JsonCodec Snapshot)
    (hWrites : ∀ e, codec.WritesLine e)
    (hSnaps : snaps.LosslessPretty)
    (labels : List WorldLabel)
    (hSucceeds : ∀ label ∈ labels, label.Succeeds)
    (world : World)
    (hRun :
      Machine.run (World.step cal codec snaps) World.init
        labels = some world)
    (dataDir : String) :
    ∃ s,
      loadState codec snaps dataDir world.dir = .ok s ∧
        ∀ id,
          ((s.summary id).isSome ↔
            ∃ event ∈ world.record, ∃ spec,
              event.spec? = some spec ∧ spec.id = id) ∧
          ∀ summary,
            s.summary id = some summary →
              summary.retriesLast7d =
                UInt32.ofNat
                  (world.record.countP fun event =>
                    event.isRetrying ∧
                      event.timerId = id) := by
  have hSound : world.Sound codec snaps :=
    World.Sound.init.run hWrites hSnaps hSucceeds hRun
  rcases hSound.stored.load hWrites dataDir with
    ⟨s, hLoad, hAgrees, hListed⟩
  refine ⟨s, hLoad, fun id => ⟨?_, ?_⟩⟩
  · rw [hListed.isSome_summary, ← hAgrees.specs]
    have hNew : id ∉ EngineState.new.specs := by
      simp [EngineState.new]
    exact
      (EngineState.mem_specs_foldl _ _ id).trans
        (or_iff_right hNew)
  · intro summary hSummary
    rcases Option.map_eq_some_iff.mp hSummary with
      ⟨state, _, hEq⟩
    rw [← hEq]
    have hCount :=
      EngineState.retries_foldl EngineState.new
        (world.archived ++ world.recent) id
    have hNew :
        EngineState.new.retries7d.getD id 0 = 0 := rfl
    rw [hNew, UInt32.zero_add] at hCount
    rw [← hAgrees.retries7d]
    exact hCount

theorem status_of_record_registered :
    ∃ world s,
      Machine.run
          (World.step utcCalendar createdCodec snapshotCodec)
          World.init registeredWorld = some world ∧
        loadState createdCodec snapshotCodec "/data"
            world.dir = .ok s ∧
        (s.summary "a").isSome := by
  rcases registeredWorld_run with
    ⟨world, hRun, hRecent, hArchived, _⟩
  rcases status_of_record utcCalendar createdCodec
      snapshotCodec createdCodec_writesLine
      (tableCodec_losslessPretty snapshotRows_ok)
      registeredWorld registeredWorld_succeeds world
      hRun "/data" with
    ⟨s, hLoad, hStatus⟩
  refine ⟨world, s, hRun, hLoad, (hStatus "a").1.mpr ?_⟩
  refine ⟨.timerCreated (everyMinute "a"), ?_, _, rfl, rfl⟩
  simp [World.record, hRecent, hArchived]

/-
  `kron job history` shows the last events of a timer that
  were logged since the last compaction, in their order.
-/
theorem history_since_compaction
    (cal : Calendar)
    (codec : JsonCodec LogEntry)
    (snaps : JsonCodec Snapshot)
    (hWrites : ∀ e, codec.WritesLine e)
    (hSnaps : snaps.LosslessPretty)
    (labels : List WorldLabel)
    (hSucceeds : ∀ label ∈ labels, label.Succeeds)
    (world : World)
    (hRun :
      Machine.run (World.step cal codec snaps) World.init
        labels = some world)
    (dataDir : String)
    (name : TimerId)
    (limit : Option Nat) :
    ∃ entries,
      Ipc.history codec dataDir world.dir name limit =
          .ok entries ∧
        entries.map LogEntry.event =
          lastOf limit
            (world.recent.filter fun event =>
              event.timerId = name) := by
  have hSound : world.Sound codec snaps :=
    World.Sound.init.run hWrites hSnaps hSucceeds hRun
  rcases hSound.stored.history hWrites name limit with
    ⟨entries, hHistory, hEvents⟩
  exact ⟨entries, hHistory dataDir, hEvents⟩

theorem history_since_compaction_registered :
    ∃ world entries,
      Machine.run
          (World.step utcCalendar createdCodec snapshotCodec)
          World.init registeredWorld = some world ∧
        Ipc.history createdCodec "/data" world.dir "a"
            (some 1) = .ok entries ∧
        entries.map LogEntry.event =
          [.timerCreated (everyMinute "a")] := by
  rcases registeredWorld_run with ⟨world, hRun, hRecent, _⟩
  rcases history_since_compaction utcCalendar createdCodec
      snapshotCodec createdCodec_writesLine
      (tableCodec_losslessPretty snapshotRows_ok)
      registeredWorld registeredWorld_succeeds world
      hRun "/data" "a" (some 1) with
    ⟨entries, hHistory, hEvents⟩
  refine ⟨world, entries, hRun, hHistory, ?_⟩
  rw [hEvents, hRecent]
  decide

end Kron
