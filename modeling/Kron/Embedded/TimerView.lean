import Kron.Embedded.Sections

/-
  One timer of the engine, seen alone.

  A view keeps what the engine holds for one timer: its
  spec and derived state, its entries on their way from the
  heap to a task, its runs between their two sections and
  the events about its runs. Entries and runs form
  multisets, so that the order of tasks does not matter.

  Key definitions include:
    * `Kron.Event.run?`
    * `Kron.TimerView`
    * `Kron.viewOf`

  Key theorems include:
    * `Kron.viewOf_logApply_self`
    * `Kron.viewOf_logApply_other`
    * `Kron.viewOf_pushNextRun_self`
    * `Kron.entriesOf_eraseIdx`
-/

------------------------------------------------------------
-- Events About Runs
------------------------------------------------------------

namespace Kron

namespace Event

/- The timer and the run that an event is about. -/
def run? : Event → Option (TimerId × RunId)
| .runDue timerId runId _ => some (timerId, runId)
| .runStarted timerId runId _ _ => some (timerId, runId)
| .runSkippedOverlap timerId runId _ _ =>
    some (timerId, runId)
| .runSucceeded timerId runId _ _ => some (timerId, runId)
| .runFailed timerId runId _ _ _ => some (timerId, runId)
| .runRetrying timerId runId _ _ => some (timerId, runId)
| .runDead timerId runId _ => some (timerId, runId)
| _ => none

/- An event about a run of the timer. -/
def IsRunOf
    (T : TimerId)
    (event : Event) : Prop :=
  event.run?.map Prod.fst = some T

instance
    (T : TimerId)
    (event : Event) :
    Decidable (event.IsRunOf T) :=
  inferInstanceAs (Decidable (_ = _))

/- The state of a timer after an event about its run. -/
def stateAfter
    (event : Event)
    (state : Option TimerState) : Option TimerState :=
  match event with
  | .runDue _ _ _ => some .running
  | .runStarted _ _ _ _ => some .running
  | .runSucceeded _ _ _ _ => some .scheduled
  | .runRetrying _ _ _ _ => some .retrying
  | .runDead _ _ _ => some .dead
  | _ => state

/- The waiting retry after an event about a run. -/
def pendingAfter
    (event : Event)
    (pending : Option PendingRetry) : Option PendingRetry :=
  match event with
  | .runSucceeded _ _ _ _ => none
  | .runRetrying _ runId attempt nextRetryAt =>
      some (runId, nextRetryAt, attempt)
  | .runDead _ _ _ => none
  | _ => pending

end Event

namespace EngineState

variable {T id : TimerId}
variable {runId : RunId}
variable {event : Event}

/- Events about runs keep the specs. -/
theorem apply_specs_of_run
    (s : EngineState)
    (hRun : event.run? = some (id, runId)) :
    (s.apply event).specs = s.specs := by
  cases event <;> first | rfl | cases hRun

theorem apply_states_self
    (s : EngineState)
    (hRun : event.run? = some (T, runId)) :
    (s.apply event).states[T]? =
      event.stateAfter s.states[T]? := by
  cases event <;> cases hRun <;>
    simp [apply, setState, setLastRun, clearRetry,
      countRetry, Event.stateAfter]

theorem apply_states_other
    (s : EngineState)
    (hRun : event.run? = some (id, runId))
    (hNe : id ≠ T) :
    (s.apply event).states[T]? = s.states[T]? := by
  cases event <;> cases hRun <;>
    simp [apply, setState, setLastRun, clearRetry,
      countRetry, BTreeMap.get_insert, hNe]

theorem apply_pendingRetries_self
    (s : EngineState)
    (hRun : event.run? = some (T, runId)) :
    (s.apply event).pendingRetries[T]? =
      event.pendingAfter s.pendingRetries[T]? := by
  cases event <;> cases hRun <;>
    simp [apply, setState, setLastRun, clearRetry,
      countRetry, Event.pendingAfter]

theorem apply_pendingRetries_other
    (s : EngineState)
    (hRun : event.run? = some (id, runId))
    (hNe : id ≠ T) :
    (s.apply event).pendingRetries[T]? =
      s.pendingRetries[T]? := by
  cases event <;> cases hRun <;>
    simp [apply, setState, setLastRun, clearRetry,
      countRetry, BTreeMap.get_insert, BTreeMap.get_erase,
      hNe]

end EngineState

end Kron

------------------------------------------------------------
-- The View Of A Timer
------------------------------------------------------------

namespace Kron

/- What the engine holds for one timer. -/
@[ext]
structure TimerView where
  spec : Option TimerSpec
  state : Option TimerState
  pending : Option PendingRetry
  next : Option DateTime
  registered : Prop
  shuttingDown : Bool
  stopped : Bool
  heap : Multiset ScheduledTimer
  due : Multiset ScheduledTimer
  spawned : Multiset ScheduledTimer
  executing : Multiset Execution
  logged : List Event

namespace TimerView

/- The entries on their way to a task. -/
def entries
    (v : TimerView) : Multiset ScheduledTimer :=
  v.heap + v.due + v.spawned

/- Nothing is scheduled any more. -/
def Halted
    (v : TimerView) : Prop :=
  v.shuttingDown ∨ v.stopped

/- An event was handed to the log. -/
def record
    (v : TimerView)
    (event : Event) : TimerView :=
  { v with logged := v.logged ++ [event] }

/- An event was logged and applied. -/
def log
    (v : TimerView)
    (event : Event) : TimerView :=
  { v.record event with
    state := event.stateAfter v.state
    pending := event.pendingAfter v.pending }

/- The engine stopped after a failed append. -/
def halt
    (v : TimerView) : TimerView :=
  { v with
    shuttingDown := true
    stopped := true }

/- An event could not be logged, and the engine stopped. -/
def fail
    (v : TimerView)
    (event : Event) : TimerView :=
  (v.record event).halt

/- A first attempt that waits in the heap. -/
def firstEntry
    (T : TimerId)
    (next : DateTime) : ScheduledTimer where
  timerId := T
  nextRunAt := next
  runId := none
  attempt := 1

/- Put the next run into the heap. -/
def push
    (v : TimerView)
    (T : TimerId)
    (next : DateTime) : TimerView :=
  { v with
    next := some next
    heap := firstEntry T next ::ₘ v.heap }

/- Put an entry into the heap. -/
def pushEntry
    (v : TimerView)
    (entry : ScheduledTimer) : TimerView :=
  { v with heap := entry ::ₘ v.heap }

/- Remove the next run. -/
def clearNext
    (v : TimerView) : TimerView :=
  { v with next := none }

/- Remove all waiting entries. -/
def dropEntries
    (v : TimerView) : TimerView :=
  { v with
    heap := 0
    next := none }

/- Store a spec under a new id. -/
def create
    (v : TimerView)
    (spec : TimerSpec) : TimerView :=
  { v with
    spec := some spec
    state := some .orphaned }

/- Store a changed spec. -/
def update
    (v : TimerView)
    (spec : TimerSpec) : TimerView :=
  { v with
    spec := some spec
    heap := 0
    next := none }

/- Register the callable. -/
def register
    (v : TimerView) : TimerView :=
  { v with
    registered := True
    state :=
      if v.state.getD .orphaned = .orphaned then
        some .scheduled
      else
        v.state }

end TimerView

/- The entries of a timer. -/
def entriesOf
    (T : TimerId)
    (entries : List ScheduledTimer) :
    Multiset ScheduledTimer :=
  ↑(entries.filter fun entry => entry.timerId = T)

/- The runs of a timer. -/
def runsOf
    (T : TimerId)
    (runs : List Execution) : Multiset Execution :=
  ↑(runs.filter fun run => run.timerId = T)

/- The view of a timer, given the tasks of the engine. -/
def viewOf
    (T : TimerId)
    (inner : Inner)
    (due spawned : List ScheduledTimer)
    (executing : List Execution) : TimerView where
  spec := inner.state.specs[T]?
  state := inner.state.states[T]?
  pending := inner.state.pendingRetries[T]?
  next := inner.state.nextRuns[T]?
  registered := T ∈ inner.registry
  shuttingDown := inner.runtime.shuttingDown
  stopped := inner.runtime.stopped
  heap := entriesOf T inner.heap
  due := entriesOf T due
  spawned := entriesOf T spawned
  executing := runsOf T executing
  logged := inner.logged.filter fun e => e.IsRunOf T

/- The entries that the dispatch loop has popped. -/
def DispatchLoop.due : DispatchLoop → List ScheduledTimer
| .running due => due
| _ => []

/- The view of a timer of an engine. -/
def Engine.view
    (T : TimerId)
    (engine : Engine) : TimerView :=
  viewOf T engine.inner engine.loop.due engine.spawned
    engine.executing

end Kron

------------------------------------------------------------
-- Entries And Runs Of A Timer
------------------------------------------------------------

namespace Kron

variable {T : TimerId}

theorem coe_filter_eraseIdx
    {α : Type}
    (p : α → Bool)
    {xs : List α}
    {i : Nat}
    {x : α}
    (hGet : xs[i]? = some x) :
    (↑(xs.filter p) : Multiset α) =
      ↑((x :: xs.eraseIdx i).filter p) := by
  rcases List.getElem?_eq_some_iff.mp hGet with ⟨hLt, hEq⟩
  rw [Multiset.coe_eq_coe, ← hEq]
  exact
    (List.getElem_cons_eraseIdx_perm hLt).symm.filter p

@[simp] theorem entriesOf_nil :
    entriesOf T [] = 0 := rfl

@[simp] theorem runsOf_nil :
    runsOf T [] = 0 := rfl

theorem entriesOf_cons_self
    {entry : ScheduledTimer}
    (entries : List ScheduledTimer)
    (hId : entry.timerId = T) :
    entriesOf T (entry :: entries) =
      entry ::ₘ entriesOf T entries := by
  simp [entriesOf, hId]

theorem entriesOf_cons_other
    {entry : ScheduledTimer}
    (entries : List ScheduledTimer)
    (hId : entry.timerId ≠ T) :
    entriesOf T (entry :: entries) =
      entriesOf T entries := by
  simp [entriesOf, hId]

theorem runsOf_cons_self
    {run : Execution}
    (runs : List Execution)
    (hId : run.timerId = T) :
    runsOf T (run :: runs) = run ::ₘ runsOf T runs := by
  simp [runsOf, hId]

theorem runsOf_cons_other
    {run : Execution}
    (runs : List Execution)
    (hId : run.timerId ≠ T) :
    runsOf T (run :: runs) = runsOf T runs := by
  simp [runsOf, hId]

/- Taking an entry out of a list. -/
theorem entriesOf_eraseIdx
    {entries : List ScheduledTimer}
    {i : Nat}
    {entry : ScheduledTimer}
    (hGet : entries[i]? = some entry) :
    entriesOf T entries =
      entriesOf T (entry :: entries.eraseIdx i) :=
  coe_filter_eraseIdx _ hGet

/- Taking a run out of a list. -/
theorem runsOf_eraseIdx
    {runs : List Execution}
    {i : Nat}
    {run : Execution}
    (hGet : runs[i]? = some run) :
    runsOf T runs = runsOf T (run :: runs.eraseIdx i) :=
  coe_filter_eraseIdx _ hGet

@[simp] theorem entriesOf_removeTimer_self
    (heap : TimerHeap) :
    entriesOf T (heap.removeTimer T) = 0 := by
  simp [entriesOf, TimerHeap.removeTimer]

theorem entriesOf_removeTimer_other
    (heap : TimerHeap)
    {id : TimerId}
    (hNe : id ≠ T) :
    entriesOf T (heap.removeTimer id) =
      entriesOf T heap := by
  unfold entriesOf TimerHeap.removeTimer
  rw [List.filter_filter]
  congr 1
  apply List.filter_congr
  intro entry _
  by_cases hId : entry.timerId = T
  · simp [hId, Ne.symm hNe]
  · simp [hId]

/- Popping splits the entries by their time. -/
theorem entriesOf_popDue
    (heap : TimerHeap)
    (now : DateTime) :
    entriesOf T heap =
      entriesOf T (heap.popDue now).1 +
        entriesOf T (heap.popDue now).2 := by
  simp only [entriesOf, TimerHeap.popDue,
    List.partition_eq_filter_filter, Multiset.coe_add,
    Multiset.coe_eq_coe, ← List.filter_append]
  exact (List.filter_append_perm _ heap).symm.filter _

theorem mem_entriesOf
    {entry : ScheduledTimer}
    {entries : List ScheduledTimer} :
    entry ∈ entriesOf T entries ↔
      entry ∈ entries ∧ entry.timerId = T := by
  simp [entriesOf]

theorem mem_runsOf
    {run : Execution}
    {runs : List Execution} :
    run ∈ runsOf T runs ↔
      run ∈ runs ∧ run.timerId = T := by
  simp [runsOf]

end Kron

------------------------------------------------------------
-- Operations On The View
------------------------------------------------------------

namespace Kron

variable {T id : TimerId}
variable {codec : JsonCodec LogEntry}
variable (inner : Inner)
variable (due spawned : List ScheduledTimer)
variable (executing : List Execution)

/- The end of a run is not part of a view. -/
@[simp] theorem viewOf_finishRun :
    viewOf T inner.finishRun due spawned executing =
      viewOf T inner due spawned executing := rfl

theorem viewOf_clearNextRun_self :
    viewOf T (inner.clearNextRun T) due spawned executing =
      (viewOf T inner due spawned executing).clearNext := by
  simp [viewOf, Inner.clearNextRun, TimerView.clearNext]

theorem viewOf_clearNextRun_other
    (hNe : id ≠ T) :
    viewOf T (inner.clearNextRun id) due spawned executing =
      viewOf T inner due spawned executing := by
  simp [viewOf, Inner.clearNextRun, BTreeMap.get_erase,
    hNe]

theorem viewOf_pushNextRun_self
    (next : DateTime) :
    viewOf T (inner.pushNextRun T next) due spawned
        executing =
      (viewOf T inner due spawned executing).push T
        next := by
  simp [viewOf, Inner.pushNextRun, TimerHeap.push,
    TimerView.push, TimerView.firstEntry,
    entriesOf_cons_self]

theorem viewOf_pushNextRun_other
    (next : DateTime)
    (hNe : id ≠ T) :
    viewOf T (inner.pushNextRun id next) due spawned
        executing =
      viewOf T inner due spawned executing := by
  simp [viewOf, Inner.pushNextRun, TimerHeap.push,
    entriesOf_cons_other, BTreeMap.get_insert, hNe]

theorem viewOf_pushEntry_self
    {entry : ScheduledTimer}
    (hId : entry.timerId = T) :
    viewOf T (inner.pushEntry entry) due spawned executing =
      (viewOf T inner due spawned executing).pushEntry
        entry := by
  simp [viewOf, Inner.pushEntry, TimerHeap.push,
    TimerView.pushEntry, entriesOf_cons_self _ hId]

theorem viewOf_pushEntry_other
    {entry : ScheduledTimer}
    (hNe : entry.timerId ≠ T) :
    viewOf T (inner.pushEntry entry) due spawned executing =
      viewOf T inner due spawned executing := by
  simp [viewOf, Inner.pushEntry, TimerHeap.push,
    entriesOf_cons_other _ hNe]

theorem viewOf_dropEntries_self :
    viewOf T (inner.dropEntries T) due spawned executing =
      (viewOf T inner due spawned
        executing).dropEntries := by
  simp [viewOf, Inner.dropEntries, Inner.clearNextRun,
    TimerView.dropEntries]

theorem viewOf_dropEntries_other
    (hNe : id ≠ T) :
    viewOf T (inner.dropEntries id) due spawned executing =
      viewOf T inner due spawned executing := by
  simp [viewOf, Inner.dropEntries, Inner.clearNextRun,
    entriesOf_removeTimer_other _ hNe, BTreeMap.get_erase,
    hNe]

theorem viewOf_register_self
    (fnName : String) :
    viewOf T (inner.register T fnName) due spawned
        executing =
      (viewOf T inner due spawned executing).register := by
  have hState :
      (inner.register T fnName).state.states[T]? =
        if inner.state.states[T]?.getD .orphaned =
            .orphaned then
          some .scheduled
        else
          inner.state.states[T]? := by
    simp only [Inner.register,
      EngineState.registerFunction,
      Std.ExtTreeMap.getD_eq_getD_getElem?]
    split <;> simp [EngineState.setState]
  have hPending :
      (inner.register T fnName).state.pendingRetries =
        inner.state.pendingRetries := by
    simp only [Inner.register,
      EngineState.registerFunction]
    split <;> rfl
  have hRegistry :
      T ∈ (inner.register T fnName).registry := by
    simp [Inner.register]
  simp only [viewOf, TimerView.register, hState, hPending,
    Inner.register_specs, Inner.register_nextRuns,
    hRegistry]
  rfl

theorem viewOf_register_other
    (fnName : String)
    (hNe : id ≠ T) :
    viewOf T (inner.register id fnName) due spawned
        executing =
      viewOf T inner due spawned executing := by
  have hState :
      (inner.register id fnName).state.states[T]? =
        inner.state.states[T]? := by
    simp only [Inner.register,
      EngineState.registerFunction]
    split <;>
      simp [EngineState.setState, BTreeMap.get_insert, hNe]
  have hPending :
      (inner.register id fnName).state.pendingRetries =
        inner.state.pendingRetries := by
    simp only [Inner.register,
      EngineState.registerFunction]
    split <;> rfl
  have hRegistry :
      T ∈ (inner.register id fnName).registry ↔
        T ∈ inner.registry := by
    simp [Inner.register, hNe]
  simp only [viewOf, hState, hPending,
    Inner.register_specs, Inner.register_nextRuns,
    hRegistry]
  rfl

end Kron

------------------------------------------------------------
-- Logging On The View
------------------------------------------------------------

namespace Kron

variable {T id : TimerId}
variable {runId : RunId}
variable {event : Event}
variable {codec : JsonCodec LogEntry}
variable (inner : Inner)
variable (due spawned : List ScheduledTimer)
variable (executing : List Execution)
variable (io : AppendIo)

theorem filter_logged_self
    (codec : JsonCodec LogEntry)
    (inner : Inner)
    (io : AppendIo)
    (hRun : event.run? = some (T, runId)) :
    (inner.logOnly codec event io).logged.filter
        (fun e => e.IsRunOf T) =
      inner.logged.filter (fun e => e.IsRunOf T) ++
        [event] := by
  simp [Inner.logOnly, Inner.append, Event.IsRunOf, hRun]

theorem filter_logged_other
    (codec : JsonCodec LogEntry)
    (inner : Inner)
    (io : AppendIo)
    (hOther : ¬ event.IsRunOf T) :
    (inner.logOnly codec event io).logged.filter
        (fun e => e.IsRunOf T) =
      inner.logged.filter (fun e => e.IsRunOf T) := by
  simp [Inner.logOnly, Inner.append, hOther]

theorem not_isRunOf_of_ne
    (hRun : event.run? = some (id, runId))
    (hNe : id ≠ T) :
    ¬ event.IsRunOf T := by
  simpa [Event.IsRunOf, hRun] using hNe

theorem not_isRunOf_of_none
    (hRun : event.run? = none) :
    ¬ event.IsRunOf T := by
  simp [Event.IsRunOf, hRun]

theorem viewOf_logApply_self
    (hRun : event.run? = some (T, runId)) :
    viewOf T (inner.logApply codec event io) due spawned
        executing =
      (viewOf T inner due spawned executing).log event := by
  have hLogged :=
    filter_logged_self codec inner io hRun
  simp only [viewOf, Inner.logApply, TimerView.log,
    TimerView.record, hLogged,
    EngineState.apply_specs_of_run _ hRun,
    EngineState.apply_states_self _ hRun,
    EngineState.apply_pendingRetries_self _ hRun,
    EngineState.apply_nextRuns]
  rfl

theorem viewOf_logApply_other
    (hRun : event.run? = some (id, runId))
    (hNe : id ≠ T) :
    viewOf T (inner.logApply codec event io) due spawned
        executing =
      viewOf T inner due spawned executing := by
  have hLogged :=
    filter_logged_other codec inner io
      (not_isRunOf_of_ne hRun hNe)
  simp only [viewOf, Inner.logApply, hLogged,
    EngineState.apply_specs_of_run _ hRun,
    EngineState.apply_states_other _ hRun hNe,
    EngineState.apply_pendingRetries_other _ hRun hNe,
    EngineState.apply_nextRuns]
  rfl

theorem viewOf_logFail_self
    (hRun : event.run? = some (T, runId)) :
    viewOf T (inner.logFail codec event io) due spawned
        executing =
      (viewOf T inner due spawned executing).fail
        event := by
  have hLogged :=
    filter_logged_self codec inner io hRun
  simp only [viewOf, Inner.logFail, TimerView.fail,
    TimerView.halt, TimerView.record, hLogged]
  rfl

theorem viewOf_logFail_other
    (hRun : event.run? = some (id, runId))
    (hNe : id ≠ T) :
    viewOf T (inner.logFail codec event io) due spawned
        executing =
      (viewOf T inner due spawned executing).halt := by
  have hLogged :=
    filter_logged_other codec inner io
      (not_isRunOf_of_ne hRun hNe)
  simp only [viewOf, Inner.logFail, TimerView.halt, hLogged]
  rfl

/- An event that is not about a run is not in the view. -/
theorem viewOf_logOnly
    (hRun : event.run? = none) :
    viewOf T (inner.logOnly codec event io) due spawned
        executing =
      viewOf T inner due spawned executing := by
  have hLogged :=
    filter_logged_other codec inner io
      (not_isRunOf_of_none (T := T) hRun)
  simp only [viewOf, hLogged]
  rfl

theorem viewOf_created_self
    {spec : TimerSpec}
    (hId : spec.id = T) :
    viewOf T (inner.logApply codec (.timerCreated spec) io)
        due spawned executing =
      (viewOf T inner due spawned executing).create
        spec := by
  have hLogged :=
    filter_logged_other codec inner io
      (not_isRunOf_of_none (T := T)
        (show (Event.timerCreated spec).run? = none
          from rfl))
  simp only [viewOf, Inner.logApply, hLogged,
    TimerView.create]
  simp [EngineState.apply, EngineState.setState, hId,
    Inner.logOnly, Inner.append]

theorem viewOf_created_other
    {spec : TimerSpec}
    (hNe : spec.id ≠ T) :
    viewOf T (inner.logApply codec (.timerCreated spec) io)
        due spawned executing =
      viewOf T inner due spawned executing := by
  have hLogged :=
    filter_logged_other codec inner io
      (not_isRunOf_of_none (T := T)
        (show (Event.timerCreated spec).run? = none
          from rfl))
  simp only [viewOf, Inner.logApply, hLogged]
  simp [EngineState.apply, EngineState.setState,
    BTreeMap.get_insert, hNe, Inner.logOnly, Inner.append]

theorem viewOf_updated_self
    {spec : TimerSpec}
    (hId : spec.id = T) :
    viewOf T
        ((inner.logApply codec (.timerUpdated spec)
          io).dropEntries spec.id) due spawned executing =
      (viewOf T inner due spawned executing).update
        spec := by
  have hLogged :=
    filter_logged_other codec inner io
      (not_isRunOf_of_none (T := T)
        (show (Event.timerUpdated spec).run? = none
          from rfl))
  rw [hId, viewOf_dropEntries_self]
  simp only [viewOf, Inner.logApply, hLogged,
    TimerView.update, TimerView.dropEntries]
  simp [EngineState.apply, hId, Inner.logOnly,
    Inner.append]

theorem viewOf_updated_other
    {spec : TimerSpec}
    (hNe : spec.id ≠ T) :
    viewOf T
        ((inner.logApply codec (.timerUpdated spec)
          io).dropEntries spec.id) due spawned executing =
      viewOf T inner due spawned executing := by
  have hLogged :=
    filter_logged_other codec inner io
      (not_isRunOf_of_none (T := T)
        (show (Event.timerUpdated spec).run? = none
          from rfl))
  rw [viewOf_dropEntries_other _ _ _ _ hNe]
  simp only [viewOf, Inner.logApply, hLogged]
  simp [EngineState.apply, BTreeMap.get_insert, hNe,
    Inner.logOnly, Inner.append]

end Kron
