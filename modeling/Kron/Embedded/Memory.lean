import Kron.Embedded.Compaction
import Kron.Embedded.Sections

/-
  Memory and the data directory.

  Every section appends the events that it applies, and a
  compaction writes the state it holds. So what recovery
  computes from the directory agrees, at every moment, with
  the specs, the last runs, the retry counts and the waiting
  retries in memory.

  Key definitions include:
    * `Kron.EngineState.Agrees`
    * `Kron.Recovers`
    * `Kron.Inner.Holds`
    * `Kron.Section.Succeeds`
    * `Kron.ReadsOwn`

  Key theorems include:
    * `Kron.Recovers.append`
    * `Kron.Recovers.compact`
    * `Kron.holds_step`
    * `Kron.memory_eq_replay`
-/

------------------------------------------------------------
-- States That Agree
------------------------------------------------------------

namespace Kron

/-
  Two states agree on what replay decides alone; lifecycle
  states, next runs and bound functions also depend on the
  process.
-/
structure EngineState.Agrees
    (s t : EngineState) : Prop where
  specs : s.specs = t.specs
  lastRuns : s.lastRuns = t.lastRuns
  retries7d : s.retries7d = t.retries7d
  pendingRetries : s.pendingRetries = t.pendingRetries

namespace EngineState.Agrees

variable {s t u : EngineState}

theorem refl
    (s : EngineState) :
    s.Agrees s :=
  ⟨rfl, rfl, rfl, rfl⟩

theorem symm
    (h : s.Agrees t) :
    t.Agrees s :=
  ⟨h.specs.symm, h.lastRuns.symm, h.retries7d.symm,
    h.pendingRetries.symm⟩

theorem trans
    (hst : s.Agrees t)
    (htu : t.Agrees u) :
    s.Agrees u :=
  ⟨hst.specs.trans htu.specs,
    hst.lastRuns.trans htu.lastRuns,
    hst.retries7d.trans htu.retries7d,
    hst.pendingRetries.trans htu.pendingRetries⟩

/- An event changes them alike. -/
theorem apply
    (h : s.Agrees t)
    (event : Event) :
    (s.apply event).Agrees (t.apply event) := by
  cases event <;>
    constructor <;>
    simp [EngineState.apply, setState, setLastRun,
      clearRetry, countRetry, h.specs, h.lastRuns,
      h.retries7d, h.pendingRetries]

/- Binding a function is not replayed. -/
theorem registerFunction
    (s : EngineState)
    (id : TimerId)
    (fnName : String) :
    s.Agrees (s.registerFunction id fnName) := by
  unfold EngineState.registerFunction
  simp only
  split <;> exact ⟨rfl, rfl, rfl, rfl⟩

theorem markFunctionMissing
    (s : EngineState)
    (id : TimerId) :
    s.Agrees (s.markFunctionMissing id) := by
  unfold EngineState.markFunctionMissing
  simp only
  split <;> exact ⟨rfl, rfl, rfl, rfl⟩

end EngineState.Agrees

end Kron

------------------------------------------------------------
-- Directories That Hold A State
------------------------------------------------------------

namespace Kron

open AppendOnlyLog
open FileSystem

variable (codec : JsonCodec LogEntry)
variable (snaps : JsonCodec Snapshot)

/-
  Recovery succeeds and agrees with a state, and the part of
  the log that it reads ends cleanly, so that more events
  may follow.
-/
structure RecoversFrom
    (dir : DataDir)
    (state base : EngineState)
    (offset : Nat)
    (entries : List LogEntry) : Prop where
  hBase :
    ∀ dataDir,
      recoveryBase snaps dataDir dir = .ok (base, offset)
  hOffset : offset ≤ (aofBytes dir).length
  hClean : EndsClean codec ((aofBytes dir).drop offset)
  hReplay :
    ∀ path,
      replay codec path ((aofBytes dir).drop offset) =
        .ok entries
  hAgrees : (base.replay entries).Agrees state

/- The directory holds the state. -/
def Recovers
    (dir : DataDir)
    (state : EngineState) : Prop :=
  ∃ base offset entries,
    RecoversFrom codec snaps dir state base offset entries

variable {codec snaps}
variable {dir dir' : DataDir}
variable {state state' : EngineState}

/- An empty directory holds the new state. -/
theorem recovers_empty :
    Recovers codec snaps ∅ EngineState.new := by
  refine ⟨EngineState.new, 0, [], ?_, ?_, ?_, ?_, ?_⟩
  · exact fun _ => rfl
  · exact Nat.zero_le _
  · exact endsClean_nil
  · exact fun _ => rfl
  · exact .refl _

namespace Recovers

/- What recovery returns. -/
theorem load
    (hHolds : Recovers codec snaps dir state)
    (dataDir : String) :
    ∃ s,
      loadState codec snaps dataDir dir = .ok s ∧
        s.Agrees state := by
  rcases hHolds with ⟨base, offset, entries, h⟩
  refine ⟨base.replay entries, ?_, h.hAgrees⟩
  rw [loadState_eq_ok_iff]
  refine ⟨base, offset, entries, h.hBase dataDir, ?_, rfl⟩
  rw [entriesAfter_of_le h.hOffset]
  exact h.hReplay _

/- The directory holds every state that agrees. -/
theorem congr
    (hHolds : Recovers codec snaps dir state)
    (hAgrees : state.Agrees state') :
    Recovers codec snaps dir state' := by
  rcases hHolds with ⟨base, offset, entries, h⟩
  exact
    ⟨base, offset, entries, h.hBase, h.hOffset, h.hClean,
      h.hReplay, h.hAgrees.trans hAgrees⟩

/- Only the snapshot and the log matter. -/
theorem of_files
    (hHolds : Recovers codec snaps dir state)
    (hSnapshot : dir'[snapshotName]? = dir[snapshotName]?)
    (hAof : aofBytes dir' = aofBytes dir) :
    Recovers codec snaps dir' state := by
  rcases hHolds with ⟨base, offset, entries, h⟩
  refine ⟨base, offset, entries, ?_, ?_, ?_, ?_, h.hAgrees⟩
  · intro dataDir
    rw [recoveryBase_congr hSnapshot]
    exact h.hBase dataDir
  · rw [hAof]
    exact h.hOffset
  · rw [hAof]
    exact h.hClean
  · rw [hAof]
    exact h.hReplay

/- An event is appended and applied. -/
theorem append
    (hWrites : ∀ e, codec.WritesLine e)
    (hHolds : Recovers codec snaps dir state)
    (event : Event)
    (ts : DateTime) :
    Recovers codec snaps
      (appendEvents codec dir [(event, ts)])
      (state.apply event) := by
  rcases hHolds with ⟨base, offset, entries, h⟩
  have hDrop :
      (aofBytes
          (appendEvents codec dir [(event, ts)])).drop
          offset =
        (aofBytes dir).drop offset ++
          encodeAll codec (entriesOf [(event, ts)]) := by
    rw [aofBytes_appendEvents,
      List.drop_append_of_le_length h.hOffset]
  refine
    ⟨base, offset, entries ++ entriesOf [(event, ts)], ?_,
      ?_, ?_, ?_, ?_⟩
  · intro dataDir
    rw [recoveryBase_appendEvents]
    exact h.hBase dataDir
  · rw [aofBytes_appendEvents, List.length_append]
    exact Nat.le_add_right_of_le h.hOffset
  · rw [hDrop]
    exact
      endsClean_append (fun e _ => hWrites e) h.hClean
        (h.hReplay "")
  · intro path
    rw [hDrop]
    exact
      replay_append_of_endsClean (fun e _ => hWrites e)
        h.hClean (h.hReplay path)
  · rw [EngineState.replay_append]
    exact h.hAgrees.apply event

/- A compaction writes the state. -/
theorem compact
    (hSnaps : snaps.LosslessPretty)
    (dir : DataDir)
    (state : EngineState)
    (now later : DateTime) :
    Recovers codec snaps
      (runAll dir (Kron.compact snaps dir state now later))
      state := by
  have hAll :
      runAll dir (Kron.compact snaps dir state now later) =
        crash dir (Kron.compact snaps dir state now later)
          7 := by
    unfold crash
    rw [List.take_of_length_le]
    unfold Kron.compact writeSnapshotAtomic rotateAof
      replace
    split <;> simp
  have hFile := snapshot_crash snaps dir state now later 7
  have hAof := aofBytes_crash snaps dir state now later 7
  have hLength : ¬ 7 < compactLength dir := by
    unfold compactLength
    split <;> omega
  rw [if_neg (by omega), if_neg hLength] at hFile
  rw [if_neg (by omega)] at hAof
  rw [hAll]
  have hNames :
      snapshotBytes snaps state 0 later =
        snapshotBytes snaps { state with fnNames := ∅ } 0
          later := rfl
  rw [hNames] at hFile
  refine
    ⟨{ state with fnNames := ∅ }, 0, [], ?_, ?_, ?_, ?_, ?_⟩
  · intro dataDir
    exact
      recoveryBase_of_snapshotBytes hSnaps rfl hFile
  · exact Nat.zero_le _
  · rw [hAof]
    exact endsClean_nil
  · intro path
    rw [hAof]
    rfl
  · exact ⟨rfl, rfl, rfl, rfl⟩

end Recovers

end Kron

------------------------------------------------------------
-- Sections
------------------------------------------------------------

namespace Kron

/- The directory of an engine holds its state. -/
def Inner.Holds
    (codec : JsonCodec LogEntry)
    (snaps : JsonCodec Snapshot)
    (inner : Inner) : Prop :=
  Recovers codec snaps inner.dir inner.state

variable {cal : Calendar}
variable {codec : JsonCodec LogEntry}
variable {snaps : JsonCodec Snapshot}
variable {inner inner' : Inner}

namespace Inner.Holds

/- The log is not touched, nor what it decides. -/
theorem frame
    (hHolds : inner.Holds codec snaps)
    (hDir : inner'.dir = inner.dir)
    (hAgrees : inner.state.Agrees inner'.state) :
    inner'.Holds codec snaps := by
  unfold Inner.Holds
  rw [hDir]
  exact hHolds.congr hAgrees

/- An event is logged and applied. -/
theorem logApply
    {event : Event}
    {io : AppendIo}
    (hWrites : ∀ e, codec.WritesLine e)
    (hIo : io.failure = none)
    (hHolds : inner.Holds codec snaps) :
    (inner.logApply codec event io).Holds codec snaps := by
  have hDir :
      (inner.logApply codec event io).dir =
        appendEvents codec inner.dir [(event, io.ts)] := by
    simp only [Inner.logApply, Inner.logOnly, Inner.append,
      Inner.appended, hIo]
    rfl
  unfold Inner.Holds
  rw [hDir]
  exact hHolds.append hWrites event io.ts

theorem clearNextRun
    (hHolds : inner.Holds codec snaps)
    (id : TimerId) :
    (inner.clearNextRun id).Holds codec snaps :=
  hHolds.frame rfl ⟨rfl, rfl, rfl, rfl⟩

theorem pushNextRun
    (hHolds : inner.Holds codec snaps)
    (id : TimerId)
    (next : DateTime) :
    (inner.pushNextRun id next).Holds codec snaps :=
  hHolds.frame rfl ⟨rfl, rfl, rfl, rfl⟩

theorem pushEntry
    (hHolds : inner.Holds codec snaps)
    (entry : ScheduledTimer) :
    (inner.pushEntry entry).Holds codec snaps :=
  hHolds.frame rfl (.refl _)

theorem finishRun
    (hHolds : inner.Holds codec snaps) :
    inner.finishRun.Holds codec snaps :=
  hHolds.frame rfl (.refl _)

theorem dropNextRun
    (hHolds : inner.Holds codec snaps)
    (spec : TimerSpec) :
    (Kron.dropNextRun inner spec).Holds codec snaps := by
  unfold Kron.dropNextRun
  split
  · exact hHolds
  · exact hHolds.frame rfl ⟨rfl, rfl, rfl, rfl⟩

theorem rescheduled
    {spec : TimerSpec}
    {from_ : DateTime}
    (hHolds : inner.Holds codec snaps)
    (hNext : Rescheduled cal inner spec from_ inner') :
    inner'.Holds codec snaps := by
  cases hNext with
  | stopped _ => exact hHolds
  | pushed next _ _ => exact hHolds.pushNextRun _ _
  | cleared _ _ _ _ => exact hHolds.clearNextRun _

/- A registration logs the spec that it stores. -/
theorem scheduled
    {call : ScheduleCall}
    {result : Except KronError Unit}
    (hWrites : ∀ e, codec.WritesLine e)
    (hIo : call.io.failure = none)
    (hHolds : inner.Holds codec snaps)
    (hCall :
      ScheduleOutcome cal codec inner call inner' result) :
    inner'.Holds codec snaps := by
  cases hCall with
  | stopped _ => exact hHolds
  | notCreated failure _ hSome =>
      rw [hIo] at hSome
      cases hSome
  | notUpdated failure hSome =>
      rw [hIo] at hSome
      cases hSome
  | scheduled stored _ _ hStore hNext =>
      have hStored : stored.Holds codec snaps := by
        cases hStore with
        | known _ => exact hHolds
        | created _ _ => exact hHolds.logApply hWrites hIo
        | updated _ _ _ _ =>
            exact
              (hHolds.logApply hWrites hIo).frame rfl
                ⟨rfl, rfl, rfl, rfl⟩
      have hRegistered :
          (stored.register call.id call.fnName).Holds codec
            snaps :=
        hStored.frame rfl (.registerFunction _ _ _)
      cases hNext with
      | waiting _ => exact hRegistered
      | pushed _ next _ _ _ =>
          exact hRegistered.pushNextRun _ _
      | none _ _ _ _ _ _ => exact hRegistered

/- The first section of a run. -/
theorem started
    {entry : ScheduledTimer}
    {io : StartIo}
    {run : Option Execution}
    (hWrites : ∀ e, codec.WritesLine e)
    (hFirst : io.first.failure = none)
    (hSecond : io.second.failure = none)
    (hHolds : inner.Holds codec snaps)
    (hStart :
      StartOutcome cal codec inner entry io inner' run) :
    inner'.Holds codec snaps := by
  have hDue :
      (inner.logApply codec (entry.dueEvent io)
        io.first).Holds codec snaps :=
    hHolds.logApply hWrites hFirst
  cases hStart with
  | noSpec _ => exact hHolds.finishRun
  | notSkipped _ _ hIo => exact (hIo hFirst).elim
  | skipped _ _ _ _ _ hNext =>
      exact
        ((hHolds.logApply hWrites hFirst).rescheduled
          hNext).finishRun
  | notDue _ _ hIo => exact (hIo hFirst).elim
  | notStarted _ _ hIo => exact (hIo hSecond).elim
  | delayed _ _ _ _ _ => exact hDue.logApply hWrites hSecond
  | started _ _ _ _ _ _ _ hNext =>
      exact
        (hDue.logApply hWrites hSecond).rescheduled hNext

/- The last section of a run. -/
theorem finished
    {run : Execution}
    {io : FinishIo}
    (hWrites : ∀ e, codec.WritesLine e)
    (hFirst : io.first.failure = none)
    (hSecond : io.second.failure = none)
    (hHolds : inner.Holds codec snaps)
    (hFinish : FinishOutcome cal codec inner run io inner') :
    inner'.Holds codec snaps := by
  have hLogged :
      ∀ event,
        (inner.logApply codec event io.first).Holds codec
          snaps :=
    fun _ => hHolds.logApply hWrites hFirst
  cases hFinish with
  | missing _ =>
      have hMarked :
          (finishMissing inner run).Holds codec snaps :=
        (hHolds.dropNextRun run.spec).frame rfl
          (.markFunctionMissing _ _)
      exact hMarked.finishRun
  | notSucceeded hIo => exact (hIo hFirst).elim
  | delayed _ _ hNext =>
      exact ((hLogged _).rescheduled hNext).finishRun
  | succeeded _ => exact (hLogged _).finishRun
  | notFailed _ _ hIo => exact (hIo hFirst).elim
  | notRetrying _ _ _ _ hIo => exact (hIo hSecond).elim
  | retryStopped _ _ _ _ _ =>
      exact
        (((hLogged _).dropNextRun run.spec).logApply hWrites
          hSecond).finishRun
  | retrying _ _ _ _ _ =>
      exact
        ((((hLogged _).dropNextRun run.spec).logApply
          hWrites hSecond).pushEntry _).finishRun
  | notDead _ _ _ hIo => exact (hIo hSecond).elim
  | deadDelayed _ _ _ _ _ _ hNext =>
      exact
        (((hLogged _).logApply hWrites hSecond).rescheduled
          hNext).finishRun
  | dead _ _ _ _ =>
      exact
        ((hLogged _).logApply hWrites hSecond).finishRun

end Inner.Holds

/- Every append of the section succeeds. -/
def Section.Succeeds : Section → Prop
| .schedule call => call.io.failure = none
| .runStart _ io =>
    io.first.failure = none ∧ io.second.failure = none
| .runFinish _ io =>
    io.first.failure = none ∧ io.second.failure = none
| _ => True

/- The engine is opened on the directory that it left. -/
def ReadsOwn
    (engine : Engine) : Section → Prop
| .reopen _ dir => dir = engine.inner.dir
| _ => True

/- Opening keeps what the log decides. -/
theorem Inner.Holds.opened
    {dataDir : String}
    {dir : DataDir}
    {state : EngineState}
    (hHolds : Recovers codec snaps dir state)
    (hOpen :
      openEngine codec snaps dataDir dir = .ok inner) :
    inner.Holds codec snaps := by
  rcases hHolds.load dataDir with ⟨s, hLoad, hAgrees⟩
  unfold openEngine at hOpen
  simp only [hLoad, Except.ok.injEq] at hOpen
  rw [← hOpen]
  have hFiles :
      Recovers codec snaps
        (Inner.opened dir s).dir state := by
    apply hHolds.of_files
    · exact BTreeMap.get_insert_ne _ _ (by decide)
    · simp [aofBytes, Inner.opened,
        AppendOnlyLog.openFile]
  apply hFiles.congr
  exact hAgrees.symm.trans ⟨rfl, rfl, rfl, rfl⟩

/- A section keeps the directory and memory together. -/
theorem holds_step
    {engine engine' : Engine}
    {sec : Section}
    (hWrites : ∀ e, codec.WritesLine e)
    (hSnaps : snaps.LosslessPretty)
    (hHolds : engine.inner.Holds codec snaps)
    (hSucceeds : sec.Succeeds)
    (hReads : ReadsOwn engine sec)
    (hStep :
      engine.step cal codec snaps sec = some engine') :
    engine'.inner.Holds codec snaps := by
  cases sec with
  | schedule call =>
      rcases Option.map_eq_some_iff.mp hStep with
        ⟨⟨inner', result⟩, hCall, hEq⟩
      rw [← hEq]
      exact
        hHolds.scheduled hWrites hSucceeds
          (scheduleOutcome_of_eq_some hCall)
  | start =>
      cases hStep
      unfold Engine.start
      split
      · exact hHolds
      · exact hHolds
  | dispatch now =>
      simp only [Engine.step, Engine.dispatch] at hStep
      split at hStep
      · split at hStep
        · cases hStep
          exact hHolds
        · cases hStep
          exact hHolds
      · cases hStep
  | spawn i =>
      simp only [Engine.step, Engine.spawn] at hStep
      split at hStep
      · split at hStep
        · cases hStep
        · split at hStep
          · cases hStep
            exact hHolds
          · split at hStep
            · cases hStep
              exact hHolds
            · cases hStep
      · cases hStep
  | runStart i io =>
      simp only [Engine.step] at hStep
      split at hStep
      · cases hStep
      · rcases Option.map_eq_some_iff.mp hStep with
          ⟨⟨inner', run⟩, hStart, hEq⟩
        rw [← hEq]
        exact
          (hHolds.clearNextRun _).started hWrites
            hSucceeds.1 hSucceeds.2
            (startOutcome_of_eq_some hStart)
  | runFinish i io =>
      simp only [Engine.step] at hStep
      split at hStep
      · cases hStep
      · rcases Option.map_eq_some_iff.mp hStep with
          ⟨inner', hFinish, hEq⟩
        rw [← hEq]
        exact
          hHolds.finished hWrites hSucceeds.1 hSucceeds.2
            (finishOutcome_of_eq_some hFinish)
  | compact now later =>
      cases hStep
      exact .compact hSnaps _ _ _ _
  | reopen dataDir dir =>
      simp only [Engine.step] at hStep
      split at hStep
      · cases hStep
      · rename_i inner hOpen
        cases hStep
        have hDir : dir = engine.inner.dir := hReads
        rw [hDir] at hOpen
        exact
          (Inner.Holds.opened hHolds hOpen).frame rfl
            (.refl _)
  | shutdownBegin =>
      cases hStep
      unfold Engine.shutdownBegin
      split
      · exact hHolds
      · split
        · exact hHolds
        · exact hHolds
  | shutdownCheck =>
      simp only [Engine.step] at hStep
      split at hStep
      · cases hStep
        exact hHolds
      · cases hStep
  | shutdownTimeout =>
      simp only [Engine.step] at hStep
      split at hStep
      · cases hStep
        exact hHolds
      · cases hStep
  | shutdownEnd =>
      simp only [Engine.step] at hStep
      split at hStep
      · cases hStep
        exact hHolds
      · cases hStep

end Kron

------------------------------------------------------------
-- Memory Equals Replay
------------------------------------------------------------

namespace Kron

/-
  In a run on a new directory whose appends all succeed, and
  in which the engine is opened again only on what it left,
  recovery agrees with memory.
-/
theorem memory_eq_replay
    (cal : Calendar)
    (codec : JsonCodec LogEntry)
    (snaps : JsonCodec Snapshot)
    (hWrites : ∀ e, codec.WritesLine e)
    (hSnaps : snaps.LosslessPretty)
    (sections : List Section)
    (hSucceeds : ∀ sec ∈ sections, sec.Succeeds)
    (hReads :
      Machine.Meets (Engine.step cal codec snaps) ReadsOwn
        emptyEngine sections)
    (engine : Engine)
    (hRun :
      emptyEngine.run cal codec snaps sections =
        some engine)
    (dataDir : String) :
    ∃ state,
      loadState codec snaps dataDir engine.inner.dir =
          .ok state ∧
        state.specs = engine.inner.state.specs ∧
        state.lastRuns = engine.inner.state.lastRuns ∧
        state.retries7d = engine.inner.state.retries7d ∧
        state.pendingRetries =
          engine.inner.state.pendingRetries := by
  have hMeets :
      Machine.Meets (Engine.step cal codec snaps)
        (fun e sec => sec.Succeeds ∧ ReadsOwn e sec)
        emptyEngine sections := by
    refine Machine.Meets.and ?_ hReads
    apply Machine.meets_of_forall
    intro sec hMem _
    exact hSucceeds sec hMem
  have hStart : emptyEngine.inner.Holds codec snaps :=
    Inner.Holds.opened recovers_empty
      (openEngine_empty codec snaps "/data")
  have hHolds : engine.inner.Holds codec snaps := by
    refine
      Machine.run_invariant
        (fun e => e.inner.Holds codec snaps) ?_ hStart
        hMeets hRun
    rintro e sec e' hHolds ⟨hSec, hOwn⟩ hTake
    exact holds_step hWrites hSnaps hHolds hSec hOwn hTake
  rcases hHolds.load dataDir with ⟨state, hLoad, hAgrees⟩
  exact
    ⟨state, hLoad, hAgrees.specs, hAgrees.lastRuns,
      hAgrees.retries7d, hAgrees.pendingRetries⟩

/- A timer that was registered is recovered. -/
theorem memory_eq_replay_registered :
    ∃ engine state,
      emptyEngine.run utcCalendar createdCodec snapshotCodec
          [.schedule (callAt (everyMinute "a") 0)] =
          some engine ∧
        engine.inner.state.specs["a"]? =
          some (everyMinute "a") ∧
        loadState createdCodec snapshotCodec "/data"
            engine.inner.dir = .ok state ∧
        state.specs["a"]? = some (everyMinute "a") := by
  have hEval :
      ∀ codec snaps,
        (emptyEngine.run utcCalendar codec snaps
          [.schedule (callAt (everyMinute "a") 0)]).map
            (fun e => e.inner.state.specs["a"]?) =
          some (some (everyMinute "a")) := by
    intro codec snaps
    cbv
  rcases Option.map_eq_some_iff.mp
      (hEval createdCodec snapshotCodec) with
    ⟨engine, hRun, hSpec⟩
  rcases memory_eq_replay utcCalendar createdCodec
      snapshotCodec createdCodec_writesLine
      (tableCodec_losslessPretty snapshotRows_ok)
      [.schedule (callAt (everyMinute "a") 0)]
      (by simp [Section.Succeeds, callAt, appendAt])
      ⟨trivial, fun _ _ => trivial⟩ engine hRun "/data" with
    ⟨state, hLoad, hSpecs, _⟩
  refine ⟨engine, state, hRun, hSpec, hLoad, ?_⟩
  rw [hSpecs]
  exact hSpec

end Kron
