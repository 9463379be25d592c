import Kron.Embedded.LogText
import Kron.Embedded.Sections

/-
  Retries across a restart.

  A waiting retry is logged, replayed and kept in
  snapshots, but only the task that logged it puts it into
  the heap. Opening a directory starts with an empty heap,
  and registration pushes first attempts without a run id.

  Key theorems include:
    * `Kron.openEngine_spec`
    * `Kron.mem_heap_of_scheduleWithOverlap`
    * `Kron.no_retry_entry_after_restart`
-/

------------------------------------------------------------
-- The Heap After Registration
------------------------------------------------------------

namespace Kron

variable {cal : Calendar}
variable {codec : JsonCodec LogEntry}
variable {snaps : JsonCodec Snapshot}

theorem openEngine_of_loadState
    {dataDir : String}
    {dir : DataDir}
    {state : EngineState}
    (hLoad : loadState codec snaps dataDir dir = .ok state) :
    openEngine codec snaps dataDir dir =
      .ok (Inner.opened dir state) := by
  unfold openEngine
  rw [hLoad]

/- What an opened engine keeps of the recovered state. -/
theorem openEngine_spec
    {dataDir : String}
    {dir : DataDir}
    {inner : Inner}
    (hOpen :
      openEngine codec snaps dataDir dir = .ok inner) :
    ∃ state,
      loadState codec snaps dataDir dir = .ok state ∧
        inner.state.specs = state.specs ∧
        inner.state.pendingRetries = state.pendingRetries ∧
        inner.state.nextRuns = ∅ ∧
        inner.heap = [] ∧
        inner.registry = ∅ ∧
        inner.runtime = RuntimeState.new := by
  unfold openEngine at hOpen
  cases hLoad : loadState codec snaps dataDir dir with
  | error e =>
      simp [hLoad] at hOpen
  | ok state =>
      simp only [hLoad, Except.ok.injEq] at hOpen
      rw [← hOpen]
      exact ⟨state, rfl, rfl, rfl, rfl, rfl, rfl, rfl⟩

/- Storing a spec adds no entry. -/
theorem mem_heap_of_storeOutcome
    {inner inner' : Inner}
    {spec : TimerSpec}
    {io : AppendIo}
    {entry : ScheduledTimer}
    (hStore : StoreOutcome codec inner spec io inner')
    (hMem : entry ∈ inner'.heap) :
    entry ∈ inner.heap := by
  cases hStore with
  | known _ => exact hMem
  | created _ _ => exact hMem
  | updated _ _ _ _ => exact List.mem_of_mem_filter hMem

/- Registration adds first attempts only. -/
theorem mem_heap_of_scheduleWithOverlap
    {inner inner' : Inner}
    {call : ScheduleCall}
    {result : Except KronError Unit}
    {entry : ScheduledTimer}
    (hCall :
      scheduleWithOverlap cal codec inner call =
        some (inner', result))
    (hMem : entry ∈ inner'.heap) :
    entry ∈ inner.heap ∨ entry.runId = none := by
  cases scheduleOutcome_of_eq_some hCall with
  | stopped _ => exact Or.inl hMem
  | notCreated _ _ _ => exact Or.inl hMem
  | notUpdated _ _ => exact Or.inl hMem
  | scheduled stored _ _ hStore hNext =>
      cases hNext with
      | waiting _ =>
          exact Or.inl (mem_heap_of_storeOutcome hStore hMem)
      | pushed _ next _ _ _ =>
          rcases List.mem_cons.mp hMem with hNew | hOld
          · right
            rw [hNew]
          · left
            exact mem_heap_of_storeOutcome hStore hOld
      | none _ _ _ _ _ _ =>
          exact Or.inl (mem_heap_of_storeOutcome hStore hMem)

end Kron

------------------------------------------------------------
-- A Timer That Waits For Its Retry
------------------------------------------------------------

namespace Kron

open Text

/- A timer with two attempts, five seconds apart. -/
def retriedTimer : TimerSpec :=
  { everyMinute "a" with
    retry :=
      { maxAttempts := 2
        backoff := .fixed 5 } }

/- Its first run failed at second 60. -/
def retriedEvents : List (Event × DateTime) :=
  [(.timerCreated retriedTimer, 0),
    (.runDue "a" "run_1" (second 60), second 60),
    (.runStarted "a" "run_1" (second 60) 1, second 60),
    (.runFailed "a" "run_1" (second 60) "boom" 1,
      second 60),
    (.runRetrying "a" "run_1" 2 (second 65), second 60)]

/- The members of a line written at second 60. -/
def eventMembers
    (body : String) : String :=
  "\"v\":1,\"ts\":\"1970-01-01T00:01:00Z\"," ++
    "\"event\":\x7b" ++ body ++ "\x7d"

/- The members of the first line. -/
def retriedTimerMembers : String :=
  "\"v\":1,\"ts\":\"1970-01-01T00:00:00Z\"," ++
    "\"event\":\x7b\"type\":\"TIMER_CREATED\"," ++
    "\"spec\":\x7b\"id\":\"a\"," ++
    "\"schedule\":\x7b\"kind\":\"every\"," ++
    "\"seconds\":60\x7d," ++
    "\"retry\":\x7b\"max_attempts\":2,\"backoff\":" ++
    "\x7b\"kind\":\"fixed\",\"seconds\":5\x7d\x7d," ++
    "\"timezone\":\"UTC\"," ++
    "\"created_at\":\"1970-01-01T00:00:00Z\"," ++
    "\"overlap\":\"delay\"\x7d\x7d"

/- The members of the five lines. -/
def retriedMembers : List String :=
  [retriedTimerMembers,
    eventMembers
      ("\"type\":\"RUN_DUE\",\"timer_id\":\"a\"," ++
        "\"run_id\":\"run_1\"," ++
        "\"scheduled_at\":\"1970-01-01T00:01:00Z\""),
    eventMembers
      ("\"type\":\"RUN_STARTED\",\"timer_id\":\"a\"," ++
        "\"run_id\":\"run_1\"," ++
        "\"started_at\":\"1970-01-01T00:01:00Z\"," ++
        "\"attempt\":1"),
    eventMembers
      ("\"type\":\"RUN_FAILED\",\"timer_id\":\"a\"," ++
        "\"run_id\":\"run_1\"," ++
        "\"finished_at\":\"1970-01-01T00:01:00Z\"," ++
        "\"error\":\"boom\",\"attempt\":1"),
    eventMembers
      ("\"type\":\"RUN_RETRYING\",\"timer_id\":\"a\"," ++
        "\"run_id\":\"run_1\",\"attempt\":2," ++
        "\"next_retry_at\":\"1970-01-01T00:01:05Z\"")]

def retriedRows : List (LogEntry × String) :=
  (AppendOnlyLog.entriesOf retriedEvents).zip
    retriedMembers

theorem retriedRows_bytes :
    (∀ bs ∈ objectBytes retriedRows,
        35 ∉ bs ∧ newline ∉ bs) ∧
      (objectBytes retriedRows).Pairwise SuffixFree := by
  simp only [objectBytes, retriedRows, retriedEvents,
    AppendOnlyLog.entriesOf, retriedMembers, List.map_cons,
    List.map_nil, List.zip_cons_cons, List.zip_nil_left,
    List.forall_mem_cons, List.pairwise_cons]
  unfold braces eventMembers retriedTimerMembers
  simp only [utf8_append]
  decide +kernel

theorem retriedRows_ok :
    TableOk (objectTable retriedRows) :=
  tableOk_of_bytes
    (fun bs hbs => (retriedRows_bytes.1 bs hbs).1)
    retriedRows_bytes.2

/- A codec that writes the five lines as the real one. -/
noncomputable def retriedCodec : JsonCodec LogEntry :=
  tableCodec (objectTable retriedRows)

theorem retriedCodec_writesLine
    (e : LogEntry) :
    retriedCodec.WritesLine e := by
  apply tableCodec_writesLine retriedRows_ok
  intro row hRow
  rcases List.mem_map.mp hRow with ⟨r, hr, rfl⟩
  exact
    (retriedRows_bytes.1 _
      (List.mem_map.mpr ⟨r, hr, rfl⟩)).2

/- The directory after the failed run. -/
noncomputable def retriedDir : DataDir :=
  appendEvents retriedCodec ∅ retriedEvents

/- The state it is replayed to. -/
def retriedState : EngineState :=
  EngineState.new.replay
    (AppendOnlyLog.entriesOf retriedEvents)

theorem loadState_retriedDir :
    loadState retriedCodec noSnapshots "/data" retriedDir =
      .ok retriedState := by
  unfold retriedDir retriedState
  exact
    loadState_appendEvents_empty retriedCodec_writesLine
      "/data" retriedEvents

/- The opened engine. -/
noncomputable def retriedInner : Inner :=
  Inner.opened retriedDir retriedState

theorem openEngine_retriedDir :
    openEngine retriedCodec noSnapshots "/data" retriedDir =
      .ok retriedInner :=
  openEngine_of_loadState loadState_retriedDir

/- The timer is registered again at second 62. -/
def retriedCall : ScheduleCall where
  id := "a"
  schedule := .every 60
  fnName := "sync"
  retry := some retriedTimer.retry
  timezone := none
  overlap := none
  createdAt := second 62
  now := second 62
  io := { ts := second 62, failure := none }

theorem retriedCall_spec :
    retriedInner.state.specs["a"]? =
      some (retriedCall.spec retriedInner.state) := by
  have hSpecs :
      retriedInner.state.specs["a"]? =
        some retriedTimer := by
    simp [retriedInner, Inner.opened, retriedState,
      retriedEvents, AppendOnlyLog.entriesOf, LogEntry.new,
      EngineState.apply_specs, Event.spec?, retriedTimer,
      everyMinute]
  rw [hSpecs]
  simp [ScheduleCall.spec, retriedCall, hSpecs,
    retriedTimer, everyMinute]

theorem retriedState_pending :
    retriedState.pendingRetries["a"]? =
      some ("run_1", second 65, 2) := by
  decide +kernel

/- The next run after second 62 is at second 122. -/
theorem scheduleWithOverlap_retriedCall :
    scheduleWithOverlap utcCalendar retriedCodec
        retriedInner retriedCall =
      some
        ((retriedInner.register "a" "sync").pushNextRun "a"
          (second 122), .ok ()) := by
  apply scheduleWithOverlap_of_known
  · rintro (hDown | hStopped)
    · cases hDown
    · cases hStopped
  · exact retriedCall_spec
  · exact Std.ExtTreeMap.not_mem_empty
  · decide +kernel

end Kron

------------------------------------------------------------
-- No Retry Survives A Restart
------------------------------------------------------------

namespace Kron

/-
  Whatever the directory, after it is opened and the timer
  is registered with the same spec, no entry of the heap
  continues the retry that waits in the replayed state.
-/
theorem no_retry_entry_after_restart
    (cal : Calendar)
    (codec : JsonCodec LogEntry)
    (snaps : JsonCodec Snapshot)
    (dataDir : String)
    (dir : DataDir)
    (state : EngineState)
    (_hLoad : loadState codec snaps dataDir dir = .ok state)
    (id : TimerId)
    (runId : RunId)
    (nextRetryAt : DateTime)
    (attempt : UInt32)
    (_hPending :
      state.pendingRetries[id]? =
        some (runId, nextRetryAt, attempt))
    (inner : Inner)
    (hOpen : openEngine codec snaps dataDir dir = .ok inner)
    (call : ScheduleCall)
    (_hId : call.id = id)
    (_hSpec :
      inner.state.specs[id]? =
        some (call.spec inner.state))
    (inner' : Inner)
    (result : Except KronError Unit)
    (hCall :
      scheduleWithOverlap cal codec inner call =
        some (inner', result)) :
    ¬ ∃ entry ∈ inner'.heap,
        entry.timerId = id ∧
          entry.runId = some runId ∧
            entry.attempt = attempt := by
  rintro ⟨entry, hMem, _, hRunId, _⟩
  rcases openEngine_spec hOpen with
    ⟨_, _, _, _, _, hHeap, _⟩
  rcases mem_heap_of_scheduleWithOverlap hCall hMem with
    hOld | hNone
  · rw [hHeap] at hOld
    cases hOld
  · rw [hRunId] at hNone
    cases hNone

/- Registered again, the timer waits for a first attempt. -/
theorem no_retry_entry_after_restart_retriedDir :
    ∃ inner' result,
      scheduleWithOverlap utcCalendar retriedCodec
          retriedInner retriedCall =
        some (inner', result) ∧
      ¬ ∃ entry ∈ inner'.heap,
          entry.timerId = "a" ∧
            entry.runId = some "run_1" ∧
              entry.attempt = 2 := by
  refine ⟨_, _, scheduleWithOverlap_retriedCall, ?_⟩
  exact
    no_retry_entry_after_restart utcCalendar retriedCodec
      noSnapshots "/data" retriedDir retriedState
      loadState_retriedDir "a" "run_1" (second 65) 2
      retriedState_pending retriedInner
      openEngine_retriedDir retriedCall rfl
      retriedCall_spec _ _ scheduleWithOverlap_retriedCall

/-
  The replayed state waits for attempt 2 of `run_1`, and
  after the restart no entry of the heap is that attempt.
-/
theorem retry_lost_retriedDir :
    loadState retriedCodec noSnapshots "/data" retriedDir =
        .ok retriedState ∧
      retriedState.pendingRetries["a"]? =
        some ("run_1", second 65, 2) ∧
      openEngine retriedCodec noSnapshots "/data"
          retriedDir = .ok retriedInner ∧
      retriedInner.state.specs["a"]? =
        some (retriedCall.spec retriedInner.state) ∧
      ∃ inner',
        scheduleWithOverlap utcCalendar retriedCodec
            retriedInner retriedCall =
          some (inner', .ok ()) ∧
        ¬ ∃ entry ∈ inner'.heap,
            entry.timerId = "a" ∧
              entry.runId = some "run_1" ∧
                entry.attempt = 2 := by
  refine
    ⟨loadState_retriedDir, retriedState_pending,
      openEngine_retriedDir, retriedCall_spec, _,
      scheduleWithOverlap_retriedCall, ?_⟩
  rintro ⟨entry, hMem, _, hRunId, _⟩
  rcases mem_heap_of_scheduleWithOverlap
      scheduleWithOverlap_retriedCall hMem with
    hOld | hNone
  · cases hOld
  · rw [hRunId] at hNone
    cases hNone

end Kron
