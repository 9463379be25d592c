import Kron.Embedded.Log
import Kron.Lib.FileSystem

/-
  Snapshots of the engine state and recovery from the data
  directory.

  A snapshot holds a state and the length of the log that
  produced it. Recovery reads the log from that offset; when
  the log is shorter it takes the offset for one of the
  rotated log `kron.aof.old` and reads both.

  Key definitions include:
    * `Kron.Snapshot.fromState`
    * `Kron.Snapshot.intoState`
    * `Kron.loadState`
    * `Kron.writeSnapshotAtomic`
    * `Kron.compact`
    * `Kron.appendEvents`

  Key theorems include:
    * `Kron.Snapshot.intoState_fromState`
    * `Kron.loadState_eq_ok_iff`
    * `Kron.recoveryBase_of_snapshotBytes`
    * `Kron.entriesAfter_of_le`
    * `Kron.loadState_appendEvents_empty`
-/

------------------------------------------------------------
-- Snapshots
------------------------------------------------------------

namespace Kron

/- `SNAPSHOT_VERSION`. -/
def snapshotVersion : UInt8 :=
  1

/- `STORAGE_FORMAT_VERSION`. -/
def storageFormatVersion : UInt8 :=
  1

/- The version of the crate. -/
def engineVersion : String :=
  "0.1.2"

structure LastRunInfoSnapshot where
  runId : RunId
  finishedAt : DateTime
  durationMs : Option UInt64
  status : String
deriving DecidableEq

structure PendingRetrySnapshot where
  runId : RunId
  nextRetryAt : DateTime
  attempt : UInt32
deriving DecidableEq

/- The contents of `kron.snapshot`. -/
structure Snapshot where
  v : UInt8
  formatVersion : UInt8
  engineVersion : String
  createdAt : DateTime
  lastAofOffset : Nat
  specs : BTreeMap TimerId TimerSpec
  states : BTreeMap TimerId TimerState
  lastRuns : BTreeMap TimerId LastRunInfoSnapshot
  nextRuns : BTreeMap TimerId DateTime
  retries7d : BTreeMap TimerId UInt32
  pendingRetries : BTreeMap TimerId PendingRetrySnapshot
deriving DecidableEq

deriving instance Countable for LastRunInfoSnapshot
deriving instance Countable for PendingRetrySnapshot
deriving instance Countable for Snapshot

namespace Snapshot

/- The snapshot of a state, stamped with the clock `now`. -/
def fromState
    (state : EngineState)
    (lastAofOffset : Nat)
    (now : DateTime) : Snapshot where
  v := snapshotVersion
  formatVersion := storageFormatVersion
  engineVersion := Kron.engineVersion
  createdAt := now
  lastAofOffset := lastAofOffset
  specs := state.specs
  states := state.states
  lastRuns :=
    state.lastRuns.map fun _ run =>
      { runId := run.runId
        finishedAt := run.finishedAt
        durationMs := run.durationMs
        status := run.status }
  nextRuns := state.nextRuns
  retries7d := state.retries7d
  pendingRetries :=
    state.pendingRetries.map fun _ retry =>
      { runId := retry.1
        nextRetryAt := retry.2.1
        attempt := retry.2.2 }

/- The state of a snapshot; no function is bound in it. -/
def intoState
    (snapshot : Snapshot) : Except KronError EngineState :=
  if snapshot.v ≠ snapshotVersion then
    .error (.invalidSnapshot
      ("unsupported snapshot version " ++
        toString snapshot.v))
  else if snapshot.formatVersion ≠ storageFormatVersion then
    .error (.invalidSnapshot
      ("unsupported storage format version " ++
        toString snapshot.formatVersion))
  else
    .ok
      { specs := snapshot.specs
        states := snapshot.states
        fnNames := ∅
        lastRuns :=
          snapshot.lastRuns.map fun _ run =>
            { runId := run.runId
              finishedAt := run.finishedAt
              durationMs := run.durationMs
              status := run.status }
        nextRuns := snapshot.nextRuns
        retries7d := snapshot.retries7d
        pendingRetries :=
          snapshot.pendingRetries.map fun _ retry =>
            (retry.runId, retry.nextRetryAt,
              retry.attempt) }

end Snapshot

end Kron

------------------------------------------------------------
-- The Data Directory
------------------------------------------------------------

namespace Kron

open FileSystem

/- The files of a data directory by name. -/
abbrev DataDir :=
  Directory String Bytes

/- The path of a file, as errors show it. -/
def joinPath
    (dataDir name : String) : String :=
  dataDir ++ "/" ++ name

def snapshotName : String :=
  "kron.snapshot"

def snapshotTmpName : String :=
  "kron.snapshot.tmp"

def aofName : String :=
  "kron.aof"

def oldAofName : String :=
  "kron.aof.old"

/- The bytes of the log; a missing log is empty. -/
def aofBytes
    (dir : DataDir) : Bytes :=
  AppendOnlyLog.openFile dir[aofName]?

/- Append events to the log of a directory. -/
def appendEvents
    (codec : JsonCodec LogEntry)
    (dir : DataDir)
    (events : List (Event × DateTime)) : DataDir :=
  dir.insert aofName
    (AppendOnlyLog.appendAll codec (aofBytes dir) events)

end Kron

------------------------------------------------------------
-- Recovery
------------------------------------------------------------

namespace Kron

variable (codec : JsonCodec LogEntry)
variable (snaps : JsonCodec Snapshot)

/- Read and parse `kron.snapshot`. -/
def readSnapshot
    (dataDir : String)
    (bytes : Bytes) : Except KronError Snapshot :=
  match snaps.fromReader bytes with
  | .ok snapshot => .ok snapshot
  | .error source =>
      .error (.invalidSnapshot
        ("cannot read " ++ joinPath dataDir snapshotName ++
          ": " ++ source.message))

/- The entries that were logged after a snapshot. -/
def entriesAfter
    (dataDir : String)
    (dir : DataDir)
    (offset : Nat) : Except KronError (List LogEntry) :=
  let aof := joinPath dataDir aofName
  let oldAof := joinPath dataDir oldAofName
  if (aofBytes dir).length < offset then
    match dir[oldAofName]? with
    | none =>
        .error (.invalidSnapshot
          ("snapshot points to AOF offset " ++
            toString offset ++ ", but " ++ aof ++
            " is shorter and " ++ oldAof ++ " is missing"))
    | some old => do
        let entries ←
          AppendOnlyLog.replayFrom codec oldAof old offset
        let rest ←
          AppendOnlyLog.replay codec aof (aofBytes dir)
        return entries ++ rest
  else
    AppendOnlyLog.replayFrom codec aof (aofBytes dir) offset

/- Recover the state from the data directory. -/
def loadState
    (dataDir : String)
    (dir : DataDir) : Except KronError EngineState :=
  match dir[snapshotName]? with
  | some bytes => do
      let snapshot ← readSnapshot snaps dataDir bytes
      let state ← snapshot.intoState
      let entries ←
        entriesAfter codec dataDir dir snapshot.lastAofOffset
      return state.replay entries
  | none => do
      let entries ←
        AppendOnlyLog.replay codec
          (joinPath dataDir aofName) (aofBytes dir)
      return EngineState.new.replay entries

end Kron

------------------------------------------------------------
-- Compaction
------------------------------------------------------------

namespace Kron

open FileSystem
open Text

variable (snaps : JsonCodec Snapshot)

/- The bytes of `kron.snapshot`. -/
def snapshotBytes
    (state : EngineState)
    (offset : Nat)
    (now : DateTime) : Bytes :=
  utf8
    (snaps.toTextPretty
      (Snapshot.fromState state offset now) ++ "\n")

/- Write the snapshot beside the old one, then rename it. -/
def writeSnapshotAtomic
    (state : EngineState)
    (offset : Nat)
    (now : DateTime) : List (Op String Bytes) :=
  replace snapshotTmpName snapshotName
    (snapshotBytes snaps state offset now)

/- Move the log to `kron.aof.old`, if there is one. -/
def rotateAof
    (dir : DataDir) : List (Op String Bytes) :=
  if aofName ∈ dir then
    [.remove oldAofName, .rename aofName oldAofName]
  else
    []

/-
  The file-system steps of a compaction. The two snapshots
  are written at the clock readings `now` and `later`.
-/
def compact
    (dir : DataDir)
    (state : EngineState)
    (now later : DateTime) : List (Op String Bytes) :=
  writeSnapshotAtomic snaps state (aofBytes dir).length now ++
    rotateAof dir ++
    [.write aofName []] ++
    writeSnapshotAtomic snaps state 0 later

end Kron

------------------------------------------------------------
-- Snapshots Keep The State
------------------------------------------------------------

namespace Kron

/- Only the bound functions are missing in a snapshot. -/
theorem Snapshot.intoState_fromState
    (state : EngineState)
    (offset : Nat)
    (now : DateTime) :
    (fromState state offset now).intoState =
      .ok { state with fnNames := ∅ } := by
  simp [fromState, intoState, Std.ExtTreeMap.map_map]

end Kron

------------------------------------------------------------
-- What Recovery Returns
------------------------------------------------------------

namespace Kron

open Text

variable (codec : JsonCodec LogEntry)
variable (snaps : JsonCodec Snapshot)

/- The state and the offset that recovery starts from. -/
def recoveryBase
    (dataDir : String)
    (dir : DataDir) : Except KronError (EngineState × Nat) :=
  match dir[snapshotName]? with
  | some bytes => do
      let snapshot ← readSnapshot snaps dataDir bytes
      let state ← snapshot.intoState
      return (state, snapshot.lastAofOffset)
  | none => .ok (EngineState.new, 0)

/- The offset in `kron.snapshot`; zero without one. -/
def recoveryOffset
    (dir : DataDir) : Nat :=
  match dir[snapshotName]? with
  | none => 0
  | some bytes =>
      match snaps.fromReader bytes with
      | .error _ => 0
      | .ok snapshot => snapshot.lastAofOffset

/- A computation in sequence succeeds when both parts do. -/
theorem bind_eq_ok_iff
    {ε α β : Type}
    {x : Except ε α}
    {f : α → Except ε β}
    {b : β} :
    (x >>= f) = .ok b ↔ ∃ a, x = .ok a ∧ f a = .ok b := by
  cases x with
  | error e => simp [bind, Except.bind]
  | ok a => simp [bind, Except.bind]

/- Recovery replays the logged entries over its base. -/
theorem loadState_eq_ok_iff
    (dataDir : String)
    (dir : DataDir)
    (s : EngineState) :
    loadState codec snaps dataDir dir = .ok s ↔
      ∃ state offset entries,
        recoveryBase snaps dataDir dir =
            .ok (state, offset) ∧
          entriesAfter codec dataDir dir offset =
              .ok entries ∧
            s = state.replay entries := by
  unfold loadState recoveryBase
  cases dir[snapshotName]? with
  | some bytes =>
      simp only [bind_eq_ok_iff, pure, Except.pure,
        Except.ok.injEq, Prod.mk.injEq]
      constructor
      · rintro ⟨snap, hSnap, state, hState, es, hEs, rfl⟩
        exact
          ⟨state, _, es,
            ⟨snap, hSnap, state, hState, rfl, rfl⟩, hEs,
            rfl⟩
      · rintro
          ⟨_, _, es, ⟨snap, hSnap, state, hState, rfl, rfl⟩,
            hEs, rfl⟩
        exact ⟨snap, hSnap, state, hState, es, hEs, rfl⟩
  | none =>
      have hEntries :
          entriesAfter codec dataDir dir 0 =
            AppendOnlyLog.replay codec
              (joinPath dataDir aofName) (aofBytes dir) := rfl
      simp only [bind_eq_ok_iff, pure, Except.pure,
        Except.ok.injEq, Prod.mk.injEq]
      constructor
      · rintro ⟨es, hEs, rfl⟩
        exact ⟨_, _, es, ⟨rfl, rfl⟩, hEs, rfl⟩
      · rintro ⟨_, _, es, ⟨rfl, rfl⟩, hEs, rfl⟩
        exact ⟨es, hEs, rfl⟩

variable {codec snaps}

/- The base of recovery has the offset of the snapshot. -/
theorem recoveryOffset_of_recoveryBase
    {dataDir : String}
    {dir : DataDir}
    {state : EngineState}
    {offset : Nat}
    (hBase :
      recoveryBase snaps dataDir dir = .ok (state, offset)) :
    recoveryOffset snaps dir = offset := by
  unfold recoveryBase at hBase
  unfold recoveryOffset
  cases hFile : dir[snapshotName]? with
  | none =>
      rw [hFile] at hBase
      cases hBase
      rfl
  | some bytes =>
      simp only [hFile, bind_eq_ok_iff, pure, Except.pure,
        Except.ok.injEq, Prod.mk.injEq] at hBase
      rcases hBase with ⟨snap, hSnap, _, _, _, hOffset⟩
      unfold readSnapshot at hSnap
      cases hRead : snaps.fromReader bytes with
      | error e => simp [hRead] at hSnap
      | ok snap' =>
          simp only [hRead, Except.ok.injEq] at hSnap
          simp [hRead, hSnap, hOffset]

/- No function is bound in the base of recovery. -/
theorem recoveryBase_fnNames
    {dataDir : String}
    {dir : DataDir}
    {state : EngineState}
    {offset : Nat}
    (hBase :
      recoveryBase snaps dataDir dir = .ok (state, offset)) :
    state.fnNames = ∅ := by
  unfold recoveryBase at hBase
  cases hFile : dir[snapshotName]? with
  | none =>
      rw [hFile] at hBase
      cases hBase
      rfl
  | some bytes =>
      simp only [hFile, bind_eq_ok_iff, pure, Except.pure,
        Except.ok.injEq, Prod.mk.injEq] at hBase
      rcases hBase with ⟨snap, _, st, hState, hEq, _⟩
      unfold Snapshot.intoState at hState
      split at hState
      · cases hState
      · split at hState
        · cases hState
        · cases hState
          rw [← hEq]

/- No function is bound in a recovered state. -/
theorem loadState_fnNames
    {dataDir : String}
    {dir : DataDir}
    {s : EngineState}
    (hLoad : loadState codec snaps dataDir dir = .ok s) :
    s.fnNames = ∅ := by
  rcases (loadState_eq_ok_iff codec snaps dataDir dir s).mp
      hLoad with ⟨state, offset, es, hBase, _, hEq⟩
  rw [hEq, EngineState.replay_fnNames]
  exact recoveryBase_fnNames hBase

/- A written snapshot is the base of recovery. -/
theorem recoveryBase_of_snapshotBytes
    {dataDir : String}
    {dir : DataDir}
    {s : EngineState}
    {offset : Nat}
    {now : DateTime}
    (hSnaps : snaps.LosslessPretty)
    (hNames : s.fnNames = ∅)
    (hFile :
      dir[snapshotName]? =
        some (snapshotBytes snaps s offset now)) :
    recoveryBase snaps dataDir dir = .ok (s, offset) := by
  have hRead :
      readSnapshot snaps dataDir
          (snapshotBytes snaps s offset now) =
        .ok (Snapshot.fromState s offset now) := by
    unfold readSnapshot snapshotBytes
    rw [JsonCodec.fromReader_utf8, hSnaps]
  have hState :
      (Snapshot.fromState s offset now).intoState =
        .ok s := by
    rw [Snapshot.intoState_fromState, ← hNames]
  simp only [recoveryBase, hFile, hRead, hState, bind,
    Except.bind, pure, Except.pure]
  rfl

/- Within the log, recovery reads it from the offset. -/
theorem entriesAfter_of_le
    {dataDir : String}
    {dir : DataDir}
    {offset : Nat}
    (hLe : offset ≤ (aofBytes dir).length) :
    entriesAfter codec dataDir dir offset =
      AppendOnlyLog.replay codec (joinPath dataDir aofName)
        ((aofBytes dir).drop offset) := by
  unfold entriesAfter
  simp only [if_neg (Nat.not_lt.mpr hLe)]
  rfl

end Kron

------------------------------------------------------------
-- Events Appended To A Directory
------------------------------------------------------------

namespace Kron

open AppendOnlyLog

variable {codec : JsonCodec LogEntry}
variable {snaps : JsonCodec Snapshot}

theorem aofBytes_appendEvents
    (dir : DataDir)
    (events : List (Event × DateTime)) :
    aofBytes (appendEvents codec dir events) =
      aofBytes dir ++
        encodeAll codec (entriesOf events) := by
  have hGet :
      (appendEvents codec dir events)[aofName]? =
        some (appendAll codec (aofBytes dir) events) := by
    simp [appendEvents]
  unfold aofBytes at hGet ⊢
  rw [hGet, ← appendAll_eq]
  rfl

theorem recoveryBase_congr
    {dataDir : String}
    {dir dir' : DataDir}
    (hGet : dir'[snapshotName]? = dir[snapshotName]?) :
    recoveryBase snaps dataDir dir' =
      recoveryBase snaps dataDir dir := by
  unfold recoveryBase
  rw [hGet]

theorem recoveryBase_appendEvents
    (dataDir : String)
    (dir : DataDir)
    (events : List (Event × DateTime)) :
    recoveryBase snaps dataDir
        (appendEvents codec dir events) =
      recoveryBase snaps dataDir dir := by
  apply recoveryBase_congr
  unfold appendEvents
  exact BTreeMap.get_insert_ne _ _ (by decide)

/- A directory with a log only is replayed from the start. -/
theorem loadState_appendEvents_empty
    (hWrites : ∀ e, codec.WritesLine e)
    (dataDir : String)
    (events : List (Event × DateTime)) :
    loadState codec snaps dataDir
        (appendEvents codec ∅ events) =
      .ok (EngineState.new.replay (entriesOf events)) := by
  have hBase :
      recoveryBase snaps dataDir (∅ : DataDir) =
        .ok (EngineState.new, 0) := rfl
  rw [loadState_eq_ok_iff]
  refine
    ⟨EngineState.new, 0, entriesOf events, ?_, ?_, rfl⟩
  · rw [recoveryBase_appendEvents, hBase]
  · rw [entriesAfter_of_le (Nat.zero_le _),
      aofBytes_appendEvents]
    exact replay_encodeAll _ fun e _ => hWrites e

end Kron
