import Kron.Embedded.Snapshot

/-
  Crashes inside a compaction.

  A compaction installs a snapshot that points to the end of
  the log, rotates the log, and installs the same snapshot
  with offset zero. Recovery tells the rotated log from the
  new one by its length alone, so that between the rotation
  and the second snapshot a new log that grows past the
  offset is taken for the old one.

  Key definitions include:
    * `Kron.CompactSafe`

  Key theorems include:
    * `Kron.snapshot_crash`
    * `Kron.aofBytes_crash`
    * `Kron.loadState_append_of_endsClean`
    * `Kron.exists_lost_of_lt`
    * `Kron.loadState_crash_compact_iff`
-/

------------------------------------------------------------
-- The Files After A Crash
------------------------------------------------------------

namespace Kron

open FileSystem
open AppendOnlyLog

/- The number of steps that install the second snapshot. -/
def compactLength
    (dir : DataDir) : Nat :=
  if aofName ∈ dir then 7 else 5

@[simp] theorem snapshotTmpName_ne_snapshotName :
    snapshotTmpName ≠ snapshotName := by
  decide

@[simp] theorem aofName_ne_snapshotName :
    aofName ≠ snapshotName := by
  decide

@[simp] theorem oldAofName_ne_snapshotName :
    oldAofName ≠ snapshotName := by
  decide

@[simp] theorem snapshotTmpName_ne_aofName :
    snapshotTmpName ≠ aofName := by
  decide

@[simp] theorem snapshotName_ne_aofName :
    snapshotName ≠ aofName := by
  decide

@[simp] theorem oldAofName_ne_aofName :
    oldAofName ≠ aofName := by
  decide

variable (snaps : JsonCodec Snapshot)

/- Which snapshot a crash leaves. -/
theorem snapshot_crash
    (dir : DataDir)
    (s : EngineState)
    (now later : DateTime)
    (k : Nat) :
    (crash dir (compact snaps dir s now later)
        k)[snapshotName]? =
      if k < 2 then
        dir[snapshotName]?
      else if k < compactLength dir then
        some (snapshotBytes snaps s (aofBytes dir).length now)
      else
        some (snapshotBytes snaps s 0 later) := by
  unfold crash compactLength compact rotateAof
  by_cases hAof : aofName ∈ dir
  · have hGet := Std.ExtTreeMap.getElem?_eq_some_getElem hAof
    rw [if_pos hAof, if_pos hAof]
    rcases k with _ | _ | _ | _ | _ | _ | _ | n <;>
    simp [writeSnapshotAtomic, replace, Op.run, hGet,
      BTreeMap.get_insert, BTreeMap.get_erase,
      Std.ExtTreeMap.getElem_insert,
      Std.ExtTreeMap.getElem_erase]
  · rw [if_neg hAof, if_neg hAof]
    rcases k with _ | _ | _ | _ | _ | n <;>
    simp [writeSnapshotAtomic, replace, Op.run,
      BTreeMap.get_insert,
      Std.ExtTreeMap.getElem_insert]

/- Which log a crash leaves. -/
theorem aofBytes_crash
    (dir : DataDir)
    (s : EngineState)
    (now later : DateTime)
    (k : Nat) :
    aofBytes (crash dir (compact snaps dir s now later) k) =
      if k < 4 then aofBytes dir else [] := by
  unfold aofBytes crash compact rotateAof
  by_cases hAof : aofName ∈ dir
  · have hGet := Std.ExtTreeMap.getElem?_eq_some_getElem hAof
    rw [if_pos hAof]
    rcases k with _ | _ | _ | _ | _ | _ | _ | n <;>
    simp [writeSnapshotAtomic, replace, Op.run, hGet,
      BTreeMap.get_insert, BTreeMap.get_erase, openFile,
      Std.ExtTreeMap.getElem_insert]
  · have hGet := Std.ExtTreeMap.getElem?_eq_none hAof
    rw [if_neg hAof]
    rcases k with _ | _ | _ | _ | _ | n <;>
    simp [writeSnapshotAtomic, replace, Op.run, hGet,
      BTreeMap.get_insert, BTreeMap.get_erase, openFile,
      Std.ExtTreeMap.getElem_insert]

end Kron

------------------------------------------------------------
-- Events Appended After A Crash
------------------------------------------------------------

namespace Kron

open AppendOnlyLog

variable {codec : JsonCodec LogEntry}
variable {snaps : JsonCodec Snapshot}

/-
  Within the log, recovery after more events reads the part
  after the offset with these events appended to it.
-/
theorem loadState_append_eq
    {dataDir : String}
    {dir : DataDir}
    {state : EngineState}
    {offset : Nat}
    (hBase :
      recoveryBase snaps dataDir dir = .ok (state, offset))
    (hLe : offset ≤ (aofBytes dir).length)
    (events : List (Event × DateTime))
    (s : EngineState) :
    loadState codec snaps dataDir
          (appendEvents codec dir events) = .ok s ↔
      ∃ entries,
        replay codec (joinPath dataDir aofName)
            ((aofBytes dir).drop offset ++
              encodeAll codec (entriesOf events)) =
            .ok entries ∧
          s = state.replay entries := by
  have hLe' :
      offset ≤
        (aofBytes (appendEvents codec dir events)).length := by
    rw [aofBytes_appendEvents, List.length_append]
    omega
  rw [loadState_eq_ok_iff]
  simp only [recoveryBase_appendEvents, hBase,
    Except.ok.injEq, Prod.mk.injEq]
  constructor
  · rintro ⟨_, _, es, ⟨rfl, rfl⟩, hEs, hEq⟩
    rw [entriesAfter_of_le hLe', aofBytes_appendEvents,
      List.drop_append_of_le_length hLe] at hEs
    exact ⟨es, hEs, hEq⟩
  · rintro ⟨es, hEs, hEq⟩
    refine ⟨state, offset, es, ⟨rfl, rfl⟩, ?_, hEq⟩
    rw [entriesAfter_of_le hLe', aofBytes_appendEvents,
      List.drop_append_of_le_length hLe]
    exact hEs

/- Events appended after a clean part are recovered. -/
theorem loadState_append_of_endsClean
    {dataDir : String}
    {dir : DataDir}
    {state : EngineState}
    {offset : Nat}
    {es : List LogEntry}
    (hWrites : ∀ e, codec.WritesLine e)
    (hBase :
      recoveryBase snaps dataDir dir = .ok (state, offset))
    (hLe : offset ≤ (aofBytes dir).length)
    (hClean :
      EndsClean codec ((aofBytes dir).drop offset))
    (hReplay :
      replay codec (joinPath dataDir aofName)
          ((aofBytes dir).drop offset) = .ok es)
    (events : List (Event × DateTime)) :
    loadState codec snaps dataDir
        (appendEvents codec dir events) =
      .ok ((state.replay es).replay (entriesOf events)) := by
  rw [loadState_append_eq hBase hLe]
  refine ⟨es ++ entriesOf events, ?_, ?_⟩
  · exact
      replay_append_of_endsClean (fun e _ => hWrites e)
        hClean hReplay
  · rw [EngineState.replay_append]

/- Events appended to a log that was read to its end. -/
theorem loadState_append_of_length
    {dataDir : String}
    {dir : DataDir}
    {s : EngineState}
    (hWrites : ∀ e, codec.WritesLine e)
    (hBase :
      recoveryBase snaps dataDir dir =
        .ok (s, (aofBytes dir).length))
    (events : List (Event × DateTime)) :
    loadState codec snaps dataDir
        (appendEvents codec dir events) =
      .ok (s.replay (entriesOf events)) := by
  have hNil :
      (aofBytes dir).drop (aofBytes dir).length = [] :=
    List.drop_length
  have hClean :
      EndsClean codec
        ((aofBytes dir).drop (aofBytes dir).length) := by
    rw [hNil]
    exact endsClean_nil
  have hReplay :
      replay codec (joinPath dataDir aofName)
          ((aofBytes dir).drop (aofBytes dir).length) =
        .ok [] := by
    rw [hNil]
    rfl
  exact
    loadState_append_of_endsClean hWrites hBase
      (Nat.le_refl _) hClean hReplay events

end Kron

------------------------------------------------------------
-- Events That Are Lost
------------------------------------------------------------

namespace Kron

open AppendOnlyLog

instance : Infinite TimerId :=
  Infinite.of_injective
    (fun n => String.ofList (List.replicate n 'a'))
    (by
      intro m n hEq
      have hLen :=
        congrArg (fun s : String => s.toList.length) hEq
      simpa using hLen)

/- Some timer has no spec yet. -/
theorem exists_notMem_specs
    (s : EngineState) :
    ∃ id, id ∉ s.specs := by
  rcases Infinite.exists_notMem_finset
      s.specs.keys.toFinset with ⟨id, hId⟩
  exact ⟨id, by simpa using hId⟩

/- A created timer has a spec. -/
theorem mem_specs_replay_created
    (s : EngineState)
    (id : TimerId)
    (now : DateTime)
    (entries : List LogEntry) :
    id ∈
      (s.replay
        (LogEntry.new (.timerCreated (everyMinute id)) now ::
          entries)).specs := by
  rw [EngineState.replay_cons]
  apply EngineState.mem_specs_replay
  rw [EngineState.apply_specs]
  simp [LogEntry.new, Event.spec?, everyMinute]

/- Create a timer, then update another one `n` times. -/
def createThenUpdate
    (id : TimerId)
    (n : Nat) : List (Event × DateTime) :=
  (.timerCreated (everyMinute id), 0) ::
    List.replicate n
      (.timerUpdated (everyMinute (id ++ "a")), 0)

/- The updates do not touch the first timer. -/
theorem other_of_mem_createThenUpdate
    {id : TimerId}
    {n : Nat}
    {entry : LogEntry}
    (hMem :
      entry ∈ (entriesOf (createThenUpdate id n)).tail)
    (spec : TimerSpec)
    (hSpec : entry.event.spec? = some spec) :
    spec.id ≠ id := by
  simp only [createThenUpdate, entriesOf, List.map_cons,
    List.map_replicate, List.tail_cons] at hMem
  rw [(List.mem_replicate.mp hMem).2] at hSpec
  simp only [LogEntry.new, Event.spec?, Option.some.injEq,
    everyMinute] at hSpec
  rw [← hSpec]
  intro hEq
  have hLen :=
    congrArg (fun s : String => s.toList.length) hEq
  simp at hLen

section Lost

variable (codec : JsonCodec LogEntry)

theorem length_le_length_encodeAll
    (entries : List LogEntry) :
    entries.length ≤ (encodeAll codec entries).length := by
  induction entries with
  | nil => simp
  | cons e es ih =>
      unfold encodeAll at ih ⊢
      rw [List.flatMap_cons, List.length_append,
        encodeLine_eq, List.length_append,
        List.length_singleton, List.length_cons]
      omega

end Lost

variable {codec : JsonCodec LogEntry}
variable {snaps : JsonCodec Snapshot}

/-
  A snapshot that points past the log: once enough events
  are appended, the first of them is never read.
-/
theorem exists_lost_of_lt
    {dataDir : String}
    {dir : DataDir}
    {state : EngineState}
    {offset : Nat}
    (hWrites : ∀ e, codec.WritesLine e)
    (hSuffix : codec.SuffixFails)
    (hBase :
      recoveryBase snaps dataDir dir = .ok (state, offset))
    (hLt : (aofBytes dir).length < offset)
    (s : EngineState) :
    ∃ events,
      loadState codec snaps dataDir
          (appendEvents codec dir events) ≠
        .ok (s.replay (entriesOf events)) := by
  rcases exists_notMem_specs state with ⟨id, hId⟩
  refine ⟨createThenUpdate id offset, ?_⟩
  intro hLoad
  rw [loadState_eq_ok_iff] at hLoad
  rcases hLoad with ⟨st, o, es, hBase', hEs, hEq⟩
  rw [recoveryBase_appendEvents, hBase] at hBase'
  cases hBase'
  -- the new log is long enough to be taken for the old one
  have hLong :=
    length_le_length_encodeAll codec
      (entriesOf (createThenUpdate id offset))
  have hCount :
      (entriesOf (createThenUpdate id offset)).length =
        offset + 1 := by
    simp [entriesOf, createThenUpdate]
  have hLe :
      offset ≤
        (aofBytes
          (appendEvents codec dir
            (createThenUpdate id offset))).length := by
    rw [aofBytes_appendEvents, List.length_append]
    omega
  rw [entriesAfter_of_le hLe, aofBytes_appendEvents,
    List.drop_append, List.drop_eq_nil_of_le hLt.le,
    List.nil_append] at hEs
  have hSuffixOf :
      es <:+
        (entriesOf (createThenUpdate id offset)).tail :=
    suffix_of_replayFrom_encodeAll hSuffix
      (fun e _ => hWrites e) (by omega) hEs
  have hKept :=
    EngineState.replay_specs_of_untouched state id es
      fun entry hMem =>
        other_of_mem_createThenUpdate
          (hSuffixOf.subset hMem)
  have hMem :=
    mem_specs_replay_created s id 0
      (entriesOf (createThenUpdate id offset)).tail
  have hIn : id ∈ (state.replay es).specs := hEq ▸ hMem
  rw [← Std.ExtTreeMap.isSome_getElem?_iff_mem, hKept,
    Std.ExtTreeMap.isSome_getElem?_iff_mem] at hIn
  exact hId hIn

/- Events as long as the offset are skipped altogether. -/
theorem loadState_append_of_skipped
    {dataDir : String}
    {dir : DataDir}
    {state : EngineState}
    {offset : Nat}
    {events : List (Event × DateTime)}
    (hBase :
      recoveryBase snaps dataDir dir = .ok (state, offset))
    (hEmpty : aofBytes dir = [])
    (hLength :
      (encodeAll codec (entriesOf events)).length = offset) :
    loadState codec snaps dataDir
        (appendEvents codec dir events) =
      .ok state := by
  have hBytes :
      aofBytes (appendEvents codec dir events) =
        encodeAll codec (entriesOf events) := by
    rw [aofBytes_appendEvents, hEmpty, List.nil_append]
  rw [loadState_eq_ok_iff]
  refine ⟨state, offset, [], ?_, ?_, rfl⟩
  · rw [recoveryBase_appendEvents, hBase]
  · rw [entriesAfter_of_le (by rw [hBytes, hLength]),
      hBytes, ← hLength, List.drop_length]
    rfl

/- An event appended after a torn record is never read. -/
theorem exists_lost_of_torn
    {dataDir : String}
    {dir : DataDir}
    {state : EngineState}
    {offset : Nat}
    {es : List LogEntry}
    (hWrites : ∀ e, codec.WritesLine e)
    (hCont : codec.ContinuationFails)
    (hBase :
      recoveryBase snaps dataDir dir = .ok (state, offset))
    (hLe : offset ≤ (aofBytes dir).length)
    (hTorn :
      ¬ EndsClean codec ((aofBytes dir).drop offset))
    (hReplay :
      replay codec (joinPath dataDir aofName)
          ((aofBytes dir).drop offset) = .ok es) :
    ∃ events,
      loadState codec snaps dataDir
          (appendEvents codec dir events) ≠
        .ok ((state.replay es).replay (entriesOf events)) := by
  rcases exists_notMem_specs (state.replay es) with ⟨id, hId⟩
  refine ⟨createThenUpdate id 0, ?_⟩
  intro hLoad
  rw [loadState_append_eq hBase hLe] at hLoad
  rcases hLoad with ⟨r, hAfter, hEq⟩
  have hPrefix : r <+: es :=
    prefix_of_replay_append_of_not_endsClean hCont
      (fun e _ => hWrites e) hTorn hReplay hAfter
  rcases hPrefix with ⟨more, hMore⟩
  apply hId
  rw [← hMore, EngineState.replay_append]
  apply EngineState.mem_specs_replay
  rw [← hEq]
  exact mem_specs_replay_created (state.replay es) id 0 []

end Kron

------------------------------------------------------------
-- Safe Crash Points
------------------------------------------------------------

namespace Kron

open FileSystem
open AppendOnlyLog

/-
  A crash after `k` steps of a compaction loses nothing.
  Before the first snapshot is installed the part of the log
  that recovery reads must be there and end cleanly; after
  the log is rotated and before the second snapshot is
  installed it must have been empty.
-/
structure CompactSafe
    (codec : JsonCodec LogEntry)
    (snaps : JsonCodec Snapshot)
    (dir : DataDir)
    (k : Nat) : Prop where
  unchanged :
    k < 2 →
      recoveryOffset snaps dir ≤ (aofBytes dir).length ∧
        EndsClean codec
          ((aofBytes dir).drop (recoveryOffset snaps dir))
  rotated :
    4 ≤ k → k < 7 → aofBytes dir = []

variable {codec : JsonCodec LogEntry}
variable {snaps : JsonCodec Snapshot}

/- Crashes before the first snapshot is installed. -/
theorem recovers_iff_of_unchanged
    {dataDir : String}
    {dir dir' : DataDir}
    {s : EngineState}
    (hWrites : ∀ e, codec.WritesLine e)
    (hCont : codec.ContinuationFails)
    (hSuffix : codec.SuffixFails)
    (hLoad : loadState codec snaps dataDir dir = .ok s)
    (hSnapshot : dir'[snapshotName]? = dir[snapshotName]?)
    (hAof : aofBytes dir' = aofBytes dir) :
    (∀ events,
        loadState codec snaps dataDir
            (appendEvents codec dir' events) =
          .ok (s.replay (entriesOf events))) ↔
      recoveryOffset snaps dir ≤ (aofBytes dir).length ∧
        EndsClean codec
          ((aofBytes dir).drop
            (recoveryOffset snaps dir)) := by
  rw [loadState_eq_ok_iff] at hLoad
  rcases hLoad with ⟨state, offset, es, hBase, hEs, rfl⟩
  rw [recoveryOffset_of_recoveryBase hBase]
  rw [← recoveryBase_congr hSnapshot] at hBase
  by_cases hLe : offset ≤ (aofBytes dir).length
  · rw [entriesAfter_of_le hLe] at hEs
    rw [← hAof] at hLe hEs ⊢
    constructor
    · intro hAll
      refine ⟨hLe, ?_⟩
      by_contra hTorn
      rcases exists_lost_of_torn hWrites hCont hBase hLe
          hTorn hEs with ⟨events, hLost⟩
      exact hLost (hAll events)
    · rintro ⟨_, hClean⟩ events
      exact
        loadState_append_of_endsClean hWrites hBase hLe
          hClean hEs events
  · constructor
    · intro hAll
      have hLt : (aofBytes dir').length < offset := by
        rw [hAof]
        omega
      rcases exists_lost_of_lt hWrites hSuffix hBase hLt
          (state.replay es) with ⟨events, hLost⟩
      exact (hLost (hAll events)).elim
    · rintro ⟨hIn, _⟩
      exact (hLe hIn).elim

/- Crashes after a snapshot with the given offset. -/
theorem recovers_iff_of_snapshot
    {dataDir : String}
    {dir' : DataDir}
    {s : EngineState}
    {offset : Nat}
    {now : DateTime}
    (hWrites : ∀ e, codec.WritesLine e)
    (hSuffix : codec.SuffixFails)
    (hSnaps : snaps.LosslessPretty)
    (hNames : s.fnNames = ∅)
    (hSnapshot :
      dir'[snapshotName]? =
        some (snapshotBytes snaps s offset now))
    (hAof : (aofBytes dir').length ≤ offset) :
    (∀ events,
        loadState codec snaps dataDir
            (appendEvents codec dir' events) =
          .ok (s.replay (entriesOf events))) ↔
      offset = (aofBytes dir').length := by
  have hBase :
      recoveryBase snaps dataDir dir' = .ok (s, offset) :=
    recoveryBase_of_snapshotBytes hSnaps hNames hSnapshot
  constructor
  · intro hAll
    by_contra hNe
    rcases exists_lost_of_lt hWrites hSuffix hBase
        (by omega) s with ⟨events, hLost⟩
    exact hLost (hAll events)
  · intro hEq
    rw [hEq] at hBase
    exact loadState_append_of_length hWrites hBase

end Kron

------------------------------------------------------------
-- A Directory With One Timer
------------------------------------------------------------

namespace Kron

open Text
open AppendOnlyLog

/- The record of a timer created at time zero. -/
def createdEntry
    (id : TimerId) : LogEntry :=
  LogEntry.new (.timerCreated (everyMinute id)) 0

/- The members of the line of `createdEntry`. -/
def createdMembers
    (id : String) : String :=
  "\"v\":1,\"ts\":\"1970-01-01T00:00:00Z\"," ++
    "\"event\":\x7b\"type\":\"TIMER_CREATED\"," ++
    "\"spec\":\x7b\"id\":\"" ++ id ++ "\"," ++
    "\"schedule\":\x7b\"kind\":\"every\"," ++
    "\"seconds\":60\x7d," ++
    "\"retry\":\x7b\"max_attempts\":1,\"backoff\":" ++
    "\x7b\"kind\":\"fixed\",\"seconds\":0\x7d\x7d," ++
    "\"timezone\":\"UTC\"," ++
    "\"created_at\":\"1970-01-01T00:00:00Z\"," ++
    "\"overlap\":\"delay\"\x7d\x7d"

def createdRows : List (LogEntry × String) :=
  [(createdEntry "a", createdMembers "a"),
    (createdEntry "b", createdMembers "b")]

theorem createdRows_bytes :
    (∀ bs ∈ objectBytes createdRows,
        35 ∉ bs ∧ newline ∉ bs) ∧
      (objectBytes createdRows).Pairwise SuffixFree ∧
      (utf8 (braces (createdMembers "b"))).length =
        (utf8 (braces (createdMembers "a"))).length := by
  simp only [objectBytes, createdRows, List.map_cons,
    List.map_nil, List.forall_mem_cons,
    List.pairwise_cons]
  unfold braces createdMembers
  simp only [utf8_append]
  decide +kernel

theorem createdRows_ok :
    TableOk (objectTable createdRows) :=
  tableOk_of_bytes
    (fun bs hbs => (createdRows_bytes.1 bs hbs).1)
    createdRows_bytes.2.1

/- A codec that writes new timers as the real one does. -/
noncomputable def createdCodec : JsonCodec LogEntry :=
  tableCodec (objectTable createdRows)

theorem createdCodec_writesLine
    (e : LogEntry) :
    createdCodec.WritesLine e := by
  apply tableCodec_writesLine createdRows_ok
  intro row hRow
  rcases List.mem_map.mp hRow with ⟨r, hr, rfl⟩
  exact
    (createdRows_bytes.1 _
      (List.mem_map.mpr ⟨r, hr, rfl⟩)).2

/- The state with the new timer `a`. -/
def createdState : EngineState :=
  EngineState.new.replay [createdEntry "a"]

/- The members of the snapshot of `createdState`. -/
def snapshotMembers
    (offset : String) : String :=
  "\n  \"v\": 1,\n  \"format_version\": 1,\n" ++
    "  \"engine_version\": \"0.1.2\",\n" ++
    "  \"created_at\": \"1970-01-01T00:00:00Z\",\n" ++
    "  \"last_aof_offset\": " ++ offset ++ ",\n" ++
    "  \"specs\": \x7b\n    \"a\": \x7b\n" ++
    "      \"id\": \"a\",\n" ++
    "      \"schedule\": \x7b\n" ++
    "        \"kind\": \"every\",\n" ++
    "        \"seconds\": 60\n      \x7d,\n" ++
    "      \"retry\": \x7b\n" ++
    "        \"max_attempts\": 1,\n" ++
    "        \"backoff\": \x7b\n" ++
    "          \"kind\": \"fixed\",\n" ++
    "          \"seconds\": 0\n        \x7d\n" ++
    "      \x7d,\n      \"timezone\": \"UTC\",\n" ++
    "      \"created_at\": " ++
    "\"1970-01-01T00:00:00Z\",\n" ++
    "      \"overlap\": \"delay\"\n    \x7d\n  \x7d,\n" ++
    "  \"states\": \x7b\n    \"a\": \"Orphaned\"\n" ++
    "  \x7d,\n  \"last_runs\": \x7b\x7d,\n" ++
    "  \"next_runs\": \x7b\x7d,\n" ++
    "  \"retries_7d\": \x7b\x7d,\n" ++
    "  \"pending_retries\": \x7b\x7d\n"

def snapshotRows : List (Snapshot × String) :=
  [(Snapshot.fromState createdState 265 0,
      snapshotMembers "265"),
    (Snapshot.fromState createdState 0 0,
      snapshotMembers "0")]

theorem snapshotRows_bytes :
    (∀ bs ∈ objectBytes snapshotRows, 35 ∉ bs) ∧
      (objectBytes snapshotRows).Pairwise SuffixFree := by
  simp only [objectBytes, snapshotRows, List.map_cons,
    List.map_nil, List.forall_mem_cons,
    List.pairwise_cons]
  unfold braces snapshotMembers
  simp only [utf8_append]
  decide +kernel

theorem snapshotRows_ok :
    TableOk (objectTable snapshotRows) :=
  tableOk_of_bytes snapshotRows_bytes.1
    snapshotRows_bytes.2

/- A codec that writes these snapshots as the real one. -/
noncomputable def snapshotCodec : JsonCodec Snapshot :=
  tableCodec (objectTable snapshotRows)

/- The directory of an engine that created timer `a`. -/
noncomputable def createdDir : DataDir :=
  appendEvents createdCodec ∅
    [(.timerCreated (everyMinute "a"), 0)]

theorem aofBytes_createdDir :
    aofBytes createdDir =
      encodeAll createdCodec [createdEntry "a"] := by
  have hEmpty : aofBytes (∅ : DataDir) = [] := by
    simp [aofBytes, openFile]
  have hEntries :
      entriesOf [(.timerCreated (everyMinute "a"), 0)] =
        [createdEntry "a"] := rfl
  unfold createdDir
  rw [aofBytes_appendEvents, hEmpty, hEntries,
    List.nil_append]

theorem loadState_createdDir :
    loadState createdCodec snapshotCodec "/data" createdDir =
      .ok createdState := by
  unfold createdDir createdState
  exact
    loadState_appendEvents_empty createdCodec_writesLine
      "/data" [(.timerCreated (everyMinute "a"), 0)]

theorem encodeAll_createdEntry
    {id : TimerId}
    (hId : id = "a" ∨ id = "b") :
    encodeAll createdCodec [createdEntry id] =
      utf8 (braces (createdMembers id)) ++ [newline] := by
  have hChars :
      tableChars (objectTable createdRows)
          (createdEntry id) =
        (braces (createdMembers id)).toList := by
    rcases hId with rfl | rfl
    · simp [tableChars, objectTable, createdRows]
    · have hNe : createdEntry "a" ≠ createdEntry "b" := by
        simp [createdEntry, LogEntry.new, everyMinute]
      simp [tableChars, objectTable, createdRows, hNe]
  have hText :
      createdCodec.toText (createdEntry id) =
        braces (createdMembers id) := by
    simp only [createdCodec, tableCodec, hChars,
      String.ofList_toList]
  simp [encodeAll, encodeLine_eq, hText]

end Kron

------------------------------------------------------------
-- The Compaction Law
------------------------------------------------------------

namespace Kron

open FileSystem
open AppendOnlyLog

/-
  After a crash inside a compaction every later event is
  recovered, in order, exactly when the crash is safe.
-/
theorem loadState_crash_compact_iff
    (codec : JsonCodec LogEntry)
    (snaps : JsonCodec Snapshot)
    (hWrites : ∀ e, codec.WritesLine e)
    (hCont : codec.ContinuationFails)
    (hSuffix : codec.SuffixFails)
    (hSnaps : snaps.LosslessPretty)
    (dataDir : String)
    (dir : DataDir)
    (s : EngineState)
    (hLoad : loadState codec snaps dataDir dir = .ok s)
    (now later : DateTime)
    (k : Nat) :
    (∀ events,
        loadState codec snaps dataDir
            (appendEvents codec
              (crash dir (compact snaps dir s now later) k)
              events) =
          .ok (s.replay (entriesOf events))) ↔
      CompactSafe codec snaps dir k := by
  have hSnapshot := snapshot_crash snaps dir s now later k
  have hAof := aofBytes_crash snaps dir s now later k
  have hNames := loadState_fnNames hLoad
  by_cases hUnchanged : k < 2
  · rw [if_pos hUnchanged] at hSnapshot
    rw [if_pos (by omega)] at hAof
    rw [recovers_iff_of_unchanged hWrites hCont hSuffix hLoad
      hSnapshot hAof]
    constructor
    · intro hSafe
      exact ⟨fun _ => hSafe, fun _ _ => by omega⟩
    · intro hSafe
      exact hSafe.unchanged hUnchanged
  · rw [if_neg hUnchanged] at hSnapshot
    by_cases hInstalled : k < compactLength dir
    · rw [if_pos hInstalled] at hSnapshot
      rw [recovers_iff_of_snapshot hWrites hSuffix hSnaps
        hNames hSnapshot (by rw [hAof]; split <;> simp),
        hAof]
      by_cases hRotated : k < 4
      · rw [if_pos hRotated]
        constructor
        · intro _
          exact
            ⟨fun h => (hUnchanged h).elim,
              fun h _ => by omega⟩
        · intro _
          rfl
      · rw [if_neg hRotated]
        have hSeven : k < 7 := by
          unfold compactLength at hInstalled
          split at hInstalled <;> omega
        constructor
        · intro hEmpty
          exact
            ⟨fun h => (hUnchanged h).elim,
              fun _ _ => List.eq_nil_of_length_eq_zero hEmpty⟩
        · intro hSafe
          rw [hSafe.rotated (by omega) hSeven]
    · rw [if_neg hInstalled] at hSnapshot
      have hLate : ¬ k < 4 := by
        unfold compactLength at hInstalled
        split at hInstalled <;> omega
      rw [if_neg hLate] at hAof
      rw [recovers_iff_of_snapshot hWrites hSuffix hSnaps
        hNames hSnapshot (by rw [hAof]; simp), hAof]
      constructor
      · intro _
        refine
          ⟨fun h => (hUnchanged h).elim, fun _ hSeven => ?_⟩
        -- only without a log is the compaction this short
        unfold compactLength at hInstalled
        unfold aofBytes
        by_cases hMem : aofName ∈ dir
        · rw [if_pos hMem] at hInstalled
          omega
        · rw [Std.ExtTreeMap.getElem?_eq_none hMem]
          rfl
      · intro _
        rfl

/- A crash before the log is rotated loses nothing. -/
theorem loadState_crash_compact_beforeRotation :
    loadState createdCodec snapshotCodec "/data"
        (appendEvents createdCodec
          (crash createdDir
            (compact snapshotCodec createdDir createdState
              0 0) 3)
          [(.timerCreated (everyMinute "b"), 0)]) =
      .ok (createdState.replay [createdEntry "b"]) :=
  (loadState_crash_compact_iff createdCodec snapshotCodec
    createdCodec_writesLine
    (tableCodec_continuationFails createdRows_ok)
    (tableCodec_suffixFails createdRows_ok)
    (tableCodec_losslessPretty snapshotRows_ok)
    "/data" createdDir createdState loadState_createdDir
    0 0 3).mpr ⟨by omega, by omega⟩
    [(.timerCreated (everyMinute "b"), 0)]

/-
  A crash after the log is rotated: the record of timer `b`
  makes the new log as long as the old one, and recovery
  skips it.
-/
theorem loadState_crash_compact_rotated :
    loadState createdCodec snapshotCodec "/data" createdDir =
        .ok createdState ∧
      loadState createdCodec snapshotCodec "/data"
          (appendEvents createdCodec
            (crash createdDir
              (compact snapshotCodec createdDir createdState
                0 0) 5)
            [(.timerCreated (everyMinute "b"), 0)]) ≠
        .ok (createdState.replay [createdEntry "b"]) := by
  refine ⟨loadState_createdDir, ?_⟩
  have hNames := loadState_fnNames loadState_createdDir
  have hMem : aofName ∈ createdDir := by
    simp [createdDir, appendEvents]
  have hSnapshot :=
    snapshot_crash snapshotCodec createdDir createdState 0 0 5
  rw [if_neg (by omega),
    if_pos (by simp [compactLength, hMem])] at hSnapshot
  have hAof :=
    aofBytes_crash snapshotCodec createdDir createdState 0 0 5
  rw [if_neg (by omega)] at hAof
  have hBase :
      recoveryBase snapshotCodec "/data"
          (crash createdDir
            (compact snapshotCodec createdDir createdState
              0 0) 5) =
        .ok (createdState, (aofBytes createdDir).length) :=
    recoveryBase_of_snapshotBytes
      (tableCodec_losslessPretty snapshotRows_ok) hNames
      hSnapshot
  have hLength :
      (encodeAll createdCodec
          (entriesOf
            [(.timerCreated (everyMinute "b"), 0)])).length =
        (aofBytes createdDir).length := by
    have hb := encodeAll_createdEntry (Or.inr rfl)
    have ha := encodeAll_createdEntry (Or.inl rfl)
    have hEntries :
        entriesOf [(.timerCreated (everyMinute "b"), 0)] =
          [createdEntry "b"] := rfl
    rw [aofBytes_createdDir, hEntries, ha, hb,
      List.length_append, List.length_append,
      createdRows_bytes.2.2]
  rw [loadState_append_of_skipped hBase hAof hLength]
  intro hEq
  have hMemB : "b" ∈ createdState.specs := by
    rw [Except.ok.inj hEq]
    exact mem_specs_replay_created createdState "b" 0 []
  revert hMemB
  decide +kernel

end Kron
