import Kron.Embedded.Compaction
import Kron.Embedded.Sections

/-
  The sleep of the dispatch loop.

  The loop pops what is due, looks at the earliest entry that
  is left, spawns tasks, and only then sleeps until that
  entry, or until it is notified. Entries are pushed by other
  threads at any point between. `notify_one` stores a permit,
  which the next wait takes, and `notify_waiters` wakes a
  loop that sleeps and stores nothing. No entry is overslept:
  a loop without a permit wakes by the time of every entry of
  the heap.

  Key definitions include:
    * `Kron.sleepDurationUntil`
    * `Kron.LoopPhase`
    * `Kron.Sleeper`
    * `Kron.Sleeper.step`
    * `Kron.Inner.Beside`
    * `Kron.Sleeper.Alert`

  Key theorems include:
    * `Kron.beside_step`
    * `Kron.Sleeper.Alert.step`
    * `Kron.no_entry_overslept`
-/

------------------------------------------------------------
-- The Loop And Its Sleep
------------------------------------------------------------

namespace Kron

/- Nanoseconds; the code counts whole milliseconds. -/
def sleepDurationUntil
    (nextAt : Option DateTime)
    (now : DateTime) : Int :=
  match nextAt with
  | none => 100 * 1000000
  | some t =>
      let delta := (t - now).tdiv 1000000
      if delta ≤ 0 then 0 else delta * 1000000

/- The nearest deadline of the entries. -/
def TimerHeap.peekNextAt
    (heap : TimerHeap) : Option DateTime :=
  (heap.map ScheduledTimer.nextRunAt).min?

/-
  The loop is about to pop, has popped and holds the nearest
  deadline that was left, or sleeps.
-/
inductive LoopPhase where
| awake
| popped (nextAt : Option DateTime)
| asleep (since deadline : DateTime)
deriving DecidableEq

/- The engine, its loop, and the permit of `notify`. -/
structure Sleeper where
  engine : Engine
  phase : LoopPhase
  permit : Bool

/-
  A section, or a step of the loop or of `shutdown` outside
  of the lock. The sections of the loop that pop have a label
  of their own.
-/
inductive SleepLabel where
| engine (sec : Section)
| pop (now : DateTime)
| sleep (now : DateTime)
| notified
| elapsed (now : DateTime)
| notifyWaiters

def Section.isDispatch : Section → Bool
| .dispatch _ => true
| _ => false

/- The engine without the entries of its heap. -/
def Engine.emptied
    (engine : Engine) : Engine :=
  { engine with inner := { engine.inner with heap := [] } }

namespace Sleeper

/- An engine that was opened and not yet used. -/
def ofInner
    (inner : Inner) : Sleeper where
  engine := Engine.ofInner inner
  phase := .awake
  permit := false

variable (cal : Calendar)
variable (codec : JsonCodec LogEntry)
variable (snaps : JsonCodec Snapshot)

/-
  Every push into the heap is followed by `notify_one`, and
  nothing else is. So a section notifies if it would leave an
  entry in a heap that was empty.
-/
def notifies
    (engine : Engine)
    (sec : Section) : Bool :=
  match engine.emptied.step cal codec snaps sec with
  | none => false
  | some engine => !engine.inner.heap.isEmpty

def step
    (s : Sleeper) : SleepLabel → Option Sleeper
| .engine (.reopen dataDir dir) =>
    (s.engine.step cal codec snaps
      (.reopen dataDir dir)).map fun engine =>
        { engine := engine, phase := .awake, permit := false }
| .engine sec =>
    if sec.isDispatch then
      none
    else
      (s.engine.step cal codec snaps sec).map fun engine =>
        { s with
          engine := engine
          permit :=
            s.permit || notifies cal codec snaps s.engine sec }
| .pop now =>
    match s.phase with
    | .awake =>
        (s.engine.dispatch now).map fun engine =>
          { s with
            engine := engine
            phase := .popped engine.inner.heap.peekNextAt }
    | _ => none
| .sleep now =>
    match s.phase, s.engine.loop with
    | .popped nextAt, .running [] =>
        some
          { s with
            phase :=
              .asleep now
                (now + sleepDurationUntil nextAt now) }
    | _, _ => none
| .notified =>
    match s.phase with
    | .asleep _ _ =>
        if s.permit then
          some { s with phase := .awake, permit := false }
        else
          none
    | _ => none
| .elapsed now =>
    match s.phase with
    | .asleep _ deadline =>
        if deadline ≤ now then
          some { s with phase := .awake }
        else
          none
    | _ => none
| .notifyWaiters =>
    match s.phase with
    | .asleep _ _ => some { s with phase := .awake }
    | _ => some s

end Sleeper

end Kron

------------------------------------------------------------
-- Sections Beside An Empty Heap
------------------------------------------------------------

namespace Kron

/-
  The same section in two engines that differ in the heap
  alone: an entry is also in the second heap, or is old.
-/
structure Inner.Beside
    (old : TimerHeap)
    (inner other : Inner) : Prop where
  rest : other = { inner with heap := other.heap }
  heap :
    ∀ entry ∈ inner.heap, entry ∈ other.heap ∨ entry ∈ old

namespace Inner.Beside

variable {old : TimerHeap}
variable {inner other : Inner}

/- The heap is neither read nor changed. -/
theorem map
    (f : Inner → Inner)
    (hFrame :
      ∀ (a : Inner) (heap : TimerHeap),
        f { a with heap := heap } =
          { f a with heap := heap })
    (hBeside : inner.Beside old other) :
    (f inner).Beside old (f other) := by
  have hHeap : ∀ a : Inner, (f a).heap = a.heap := by
    intro a
    have hSame : f a = { f a with heap := a.heap } :=
      hFrame a a.heap
    rw [hSame]
  constructor
  · rw [hHeap]
    conv => lhs; rw [hBeside.rest, hFrame]
  · rw [hHeap, hHeap]
    exact hBeside.heap

/- An entry is pushed into both. -/
theorem push
    (entry : ScheduledTimer)
    (hBeside : inner.Beside old other) :
    Inner.Beside old
      { inner with heap := inner.heap.push entry }
      { other with heap := other.heap.push entry } := by
  constructor
  · conv => lhs; rw [hBeside.rest]
  · intro e hMem
    rcases List.mem_cons.mp hMem with rfl | hMem
    · exact Or.inl List.mem_cons_self
    · rcases hBeside.heap e hMem with hOther | hOld
      · exact Or.inl (List.mem_cons_of_mem _ hOther)
      · exact Or.inr hOld

/- The entries of a timer are removed from both. -/
theorem removeTimer
    (id : TimerId)
    (hBeside : inner.Beside old other) :
    Inner.Beside old
      { inner with heap := inner.heap.removeTimer id }
      { other with heap := other.heap.removeTimer id } := by
  constructor
  · conv => lhs; rw [hBeside.rest]
  · intro e hMem
    rcases List.mem_filter.mp hMem with ⟨hMem, hNe⟩
    rcases hBeside.heap e hMem with hOther | hOld
    · exact Or.inl (List.mem_filter.mpr ⟨hOther, hNe⟩)
    · exact Or.inr hOld

/- Without a next run, the heap is as it was. -/
theorem clearNextRun
    (id : TimerId)
    (hBeside : inner.Beside old other) :
    (inner.clearNextRun id).Beside old
      (other.clearNextRun id) :=
  hBeside.map (fun a => a.clearNextRun id) fun _ _ => rfl

theorem pushNextRun
    (id : TimerId)
    (next : DateTime)
    (hBeside : inner.Beside old other) :
    (inner.pushNextRun id next).Beside old
      (other.pushNextRun id next) := by
  have hNext :=
    hBeside.map
      (fun a =>
        { a with
          state :=
            { a.state with
              nextRuns :=
                a.state.nextRuns.insert id next } })
      fun _ _ => rfl
  exact hNext.push _

theorem finishRun
    (hBeside : inner.Beside old other) :
    inner.finishRun.Beside old other.finishRun :=
  hBeside.map Inner.finishRun fun _ _ => rfl

theorem dropEntries
    (id : TimerId)
    (hBeside : inner.Beside old other) :
    (inner.dropEntries id).Beside old
      (other.dropEntries id) :=
  (hBeside.removeTimer id).clearNextRun id

theorem dropNextRun
    (spec : TimerSpec)
    (hBeside : inner.Beside old other) :
    (Kron.dropNextRun inner spec).Beside old
      (Kron.dropNextRun other spec) := by
  unfold Kron.dropNextRun
  split
  · exact hBeside
  · exact hBeside.dropEntries spec.id

theorem state
    (hBeside : inner.Beside old other) :
    other.state = inner.state := by
  rw [hBeside.rest]

theorem runtime
    (hBeside : inner.Beside old other) :
    other.runtime = inner.runtime := by
  rw [hBeside.rest]

/- An append succeeds or fails in both. -/
theorem append
    (codec : JsonCodec LogEntry)
    (event : Event)
    (io : AppendIo)
    (hBeside : inner.Beside old other) :
    ∃ a b result,
      inner.append codec event io = (a, result) ∧
        other.append codec event io = (b, result) ∧
        a.Beside old b :=
  ⟨_, _, _, rfl, rfl,
    hBeside.map (fun a => (a.append codec event io).1)
      fun _ _ => rfl⟩

theorem appendApplyOrStop
    (codec : JsonCodec LogEntry)
    (event : Event)
    (io : AppendIo)
    (hBeside : inner.Beside old other) :
    (∃ a b,
      inner.appendApplyOrStop codec event io =
          (a, .ok ()) ∧
        other.appendApplyOrStop codec event io =
          (b, .ok ()) ∧
        a.Beside old b) ∨
      ∃ a b e,
        inner.appendApplyOrStop codec event io =
            (a, .error e) ∧
          other.appendApplyOrStop codec event io =
            (b, .error e) ∧
          a.Beside old b := by
  have hApplied :
      (inner.logApply codec event io).Beside old
        (other.logApply codec event io) :=
    hBeside.map (fun a => a.logApply codec event io)
      fun _ _ => rfl
  have hFailed :
      (inner.logFail codec event io).Beside old
        (other.logFail codec event io) :=
    hBeside.map (fun a => a.logFail codec event io)
      fun _ _ => rfl
  rcases inner.appendApplyOrStop_cases codec event io with
    ⟨hNone, hFirst⟩ | ⟨failure, hSome, hFirst⟩
  · rcases other.appendApplyOrStop_cases codec event io with
      ⟨_, hSecond⟩ | ⟨_, hSome, _⟩
    · exact Or.inl ⟨_, _, hFirst, hSecond, hApplied⟩
    · rw [hNone] at hSome
      cases hSome
  · rcases other.appendApplyOrStop_cases codec event io with
      ⟨hNone, _⟩ | ⟨failure', hSome', hSecond⟩
    · rw [hNone] at hSome
      cases hSome
    · rw [hSome] at hSome'
      cases hSome'
      exact Or.inr ⟨_, _, _, hFirst, hSecond, hFailed⟩

end Inner.Beside

/-
  Where the first section returns, so does the second, and
  what they leave is beside each other.
-/
def BesideSome
    {α : Type}
    (innerOf : α → Inner)
    (old : TimerHeap)
    (result other : Option α) : Prop :=
  ∀ a,
    result = some a →
      ∃ b, other = some b ∧
        (innerOf a).Beside old (innerOf b)

namespace BesideSome

variable {α β : Type}
variable {innerOf : α → Inner}
variable {innerOf' : β → Inner}
variable {old : TimerHeap}
variable {result other : Option α}

theorem pure
    {a b : α}
    (hBeside : (innerOf a).Beside old (innerOf b)) :
    BesideSome innerOf old (some a) (some b) := by
  intro a' hEq
  cases hEq
  exact ⟨b, rfl, hBeside⟩

theorem panic :
    BesideSome innerOf old none other := by
  intro a hEq
  cases hEq

theorem map
    (f g : α → β)
    (hMap :
      ∀ a b,
        (innerOf a).Beside old (innerOf b) →
          (innerOf' (f a)).Beside old (innerOf' (g b)))
    (hBeside : BesideSome innerOf old result other) :
    BesideSome innerOf' old (result.map f) (other.map g) := by
  intro c hEq
  rcases Option.map_eq_some_iff.mp hEq with ⟨a, ha, rfl⟩
  rcases hBeside a ha with ⟨b, hb, hab⟩
  rw [hb]
  exact ⟨g b, rfl, hMap a b hab⟩

end BesideSome

end Kron

------------------------------------------------------------
-- Every Section Pushes Beside An Empty Heap
------------------------------------------------------------

namespace Kron

variable {cal : Calendar}
variable {codec : JsonCodec LogEntry}
variable {snaps : JsonCodec Snapshot}
variable {old : TimerHeap}
variable {inner other : Inner}

theorem rescheduleFrom_beside
    (spec : TimerSpec)
    (from_ : DateTime)
    (hBeside : inner.Beside old other) :
    BesideSome id old (inner.rescheduleFrom cal spec from_)
      (other.rescheduleFrom cal spec from_) := by
  unfold Inner.rescheduleFrom
  rw [hBeside.runtime]
  split
  · exact .pure hBeside
  · split
    · exact .panic
    · exact .pure (hBeside.pushNextRun _ _)
    · exact .pure (hBeside.clearNextRun _)

theorem scheduleNext_beside
    (timerId : TimerId)
    (now : DateTime)
    (hBeside : inner.Beside old other) :
    BesideSome id old (inner.scheduleNext cal timerId now)
      (other.scheduleNext cal timerId now) := by
  unfold Inner.scheduleNext
  rw [hBeside.state]
  split
  · exact .pure hBeside
  · split
    · exact .panic
    · split
      · exact .panic
      · exact .pure (hBeside.pushNextRun _ _)
      · exact .pure hBeside

/- A spec is stored in both, or in none. -/
theorem storeSpec_beside
    (codec : JsonCodec LogEntry)
    (spec : TimerSpec)
    (io : AppendIo)
    (hBeside : inner.Beside old other) :
    ∃ a b result,
      inner.storeSpec codec spec io = (a, result) ∧
        other.storeSpec codec spec io = (b, result) ∧
        a.Beside old b := by
  unfold Inner.storeSpec
  rw [hBeside.state]
  split
  · rcases hBeside.append codec
        (.timerCreated spec) io with
      ⟨a, b, result, hFirst, hSecond, hNext⟩
    rw [hFirst, hSecond]
    cases result with
    | error e => exact ⟨a, b, .error e, rfl, rfl, hNext⟩
    | ok _ =>
        refine ⟨_, _, .ok (), rfl, rfl, ?_⟩
        exact
          hNext.map
            (fun c =>
              { c with
                state := c.state.apply (.timerCreated spec) })
            fun _ _ => rfl
  · split
    · exact ⟨inner, other, .ok (), rfl, rfl, hBeside⟩
    · rcases hBeside.append codec
          (.timerUpdated spec) io with
        ⟨a, b, result, hFirst, hSecond, hNext⟩
      rw [hFirst, hSecond]
      cases result with
      | error e => exact ⟨a, b, .error e, rfl, rfl, hNext⟩
      | ok _ =>
          refine ⟨_, _, .ok (), rfl, rfl, ?_⟩
          have hApplied :=
            hNext.map
              (fun c =>
                { c with
                  state :=
                    c.state.apply (.timerUpdated spec) })
              fun _ _ => rfl
          exact hApplied.dropEntries spec.id

theorem scheduleWithOverlap_beside
    (call : ScheduleCall)
    (hBeside : inner.Beside old other) :
    BesideSome Prod.fst old
      (scheduleWithOverlap cal codec inner call)
      (scheduleWithOverlap cal codec other call) := by
  unfold scheduleWithOverlap
  rw [hBeside.runtime, hBeside.state]
  split
  · exact .pure hBeside
  · rcases storeSpec_beside codec
        (call.spec inner.state) call.io hBeside with
      ⟨a, b, result, hFirst, hSecond, hStored⟩
    rw [hFirst, hSecond]
    cases result with
    | error e => exact .pure hStored
    | ok _ =>
        have hRegistered :=
          hStored.map
            (fun c => c.register call.id call.fnName)
            fun _ _ => rfl
        exact
          (scheduleNext_beside call.id call.now
            hRegistered).map _ _ fun _ _ hNext => hNext

theorem skipRun_beside
    (entry : ScheduledTimer)
    (spec : TimerSpec)
    (io : StartIo)
    (hBeside : inner.Beside old other) :
    BesideSome id old (skipRun cal codec inner entry spec io)
      (skipRun cal codec other entry spec io) := by
  rw [skipRun_eq, skipRun_eq]
  rcases hBeside.appendApplyOrStop codec
      (entry.skippedEvent io) io.first with
    ⟨a, b, hFirst, hSecond, hNext⟩ |
      ⟨a, b, e, hFirst, hSecond, hNext⟩
  · rw [hFirst, hSecond]
    exact
      (rescheduleFrom_beside spec entry.nextRunAt hNext).map
        _ _ fun _ _ hDone => hDone.finishRun
  · rw [hFirst, hSecond]
    exact .pure hNext.finishRun

theorem startRun_beside
    (entry : ScheduledTimer)
    (spec : TimerSpec)
    (io : StartIo)
    (hBeside : inner.Beside old other) :
    BesideSome Prod.fst old
      (startRun cal codec inner entry spec io)
      (startRun cal codec other entry spec io) := by
  rw [startRun_eq, startRun_eq]
  rcases hBeside.appendApplyOrStop codec
      (entry.dueEvent io) io.first with
    ⟨a, b, hFirst, hSecond, hDue⟩ |
      ⟨a, b, e, hFirst, hSecond, hDue⟩
  · simp only [hFirst, hSecond]
    rcases hDue.appendApplyOrStop codec
        (entry.startedEvent io) io.second with
      ⟨c, d, hFirst, hSecond, hStarted⟩ |
        ⟨c, d, e, hFirst, hSecond, hStarted⟩
    · simp only [hFirst, hSecond]
      split
      · exact .pure hStarted
      · exact
          (rescheduleFrom_beside spec entry.nextRunAt
            hStarted).map _ _ fun _ _ hNext => hNext
    · simp only [hFirst, hSecond]
      exact .pure hStarted.finishRun
  · simp only [hFirst, hSecond]
    exact .pure hDue.finishRun

theorem runTimerStart_beside
    (entry : ScheduledTimer)
    (io : StartIo)
    (hBeside : inner.Beside old other) :
    BesideSome Prod.fst old
      (runTimerStart cal codec inner entry io)
      (runTimerStart cal codec other entry io) := by
  have hClear := hBeside.clearNextRun entry.timerId
  unfold runTimerStart
  simp only
  rw [hClear.state]
  split
  · exact .pure hClear.finishRun
  · split
    · exact
        (skipRun_beside entry _ io hClear).map _ _
          fun _ _ hNext => hNext
    · exact startRun_beside entry _ io hClear

theorem finishSucceeded_beside
    (run : Execution)
    (io : FinishIo)
    (hBeside : inner.Beside old other) :
    BesideSome id old
      (finishSucceeded cal codec inner run io)
      (finishSucceeded cal codec other run io) := by
  rw [finishSucceeded_eq, finishSucceeded_eq]
  rcases hBeside.appendApplyOrStop codec
      (run.succeededEvent io) io.first with
    ⟨a, b, hFirst, hSecond, hNext⟩ |
      ⟨a, b, e, hFirst, hSecond, hNext⟩
  · simp only [hFirst, hSecond]
    split
    · exact rescheduleFrom_beside run.spec io.now hNext
    · exact .pure hNext
  · simp only [hFirst, hSecond]
    exact .pure hNext

theorem finishRetrying_beside
    (run : Execution)
    (attempt : UInt32)
    (retryAt : DateTime)
    (io : FinishIo)
    (hBeside : inner.Beside old other) :
    (finishRetrying codec inner run attempt retryAt
      io).Beside old
      (finishRetrying codec other run attempt retryAt
        io) := by
  rw [finishRetrying_eq, finishRetrying_eq]
  rcases (hBeside.dropNextRun run.spec).appendApplyOrStop
      codec (run.retryingEvent attempt retryAt)
      io.second with
    ⟨a, b, hFirst, hSecond, hNext⟩ |
      ⟨a, b, e, hFirst, hSecond, hNext⟩
  · simp only [hFirst, hSecond, hNext.runtime]
    split
    · exact hNext
    · exact hNext.push _
  · simp only [hFirst, hSecond]
    exact hNext

theorem finishDead_beside
    (run : Execution)
    (io : FinishIo)
    (hBeside : inner.Beside old other) :
    BesideSome id old (finishDead cal codec inner run io)
      (finishDead cal codec other run io) := by
  rw [finishDead_eq, finishDead_eq]
  rcases hBeside.appendApplyOrStop codec
      (run.deadEvent io) io.second with
    ⟨a, b, hFirst, hSecond, hNext⟩ |
      ⟨a, b, e, hFirst, hSecond, hNext⟩
  · simp only [hFirst, hSecond]
    split
    · exact rescheduleFrom_beside run.spec io.now hNext
    · exact .pure hNext
  · simp only [hFirst, hSecond]
    exact .pure hNext

theorem finishFailed_beside
    (run : Execution)
    (error : String)
    (io : FinishIo)
    (hBeside : inner.Beside old other) :
    BesideSome id old
      (finishFailed cal codec inner run error io)
      (finishFailed cal codec other run error io) := by
  have hAttempt :
      other.readAttempt run.spec.id =
        inner.readAttempt run.spec.id := by
    unfold Inner.readAttempt
    rw [hBeside.state]
  rw [finishFailed_eq, finishFailed_eq, hAttempt]
  rcases hBeside.appendApplyOrStop codec
      (run.failedEvent (inner.readAttempt run.spec.id)
        error io) io.first with
    ⟨a, b, hFirst, hSecond, hNext⟩ |
      ⟨a, b, e, hFirst, hSecond, hNext⟩
  · simp only [hFirst, hSecond]
    split
    · exact .panic
    · exact
        .pure
          (finishRetrying_beside run _ _ io hNext)
    · exact finishDead_beside run io hNext
  · simp only [hFirst, hSecond]
    exact .pure hNext

theorem runTimerFinish_beside
    (run : Execution)
    (io : FinishIo)
    (hBeside : inner.Beside old other) :
    BesideSome id old (runTimerFinish cal codec inner run io)
      (runTimerFinish cal codec other run io) := by
  unfold runTimerFinish
  split
  · have hMarked :=
      (hBeside.dropNextRun run.spec).map
        (fun a =>
          { a with
            state :=
              a.state.markFunctionMissing run.spec.id })
        fun _ _ => rfl
    exact .pure hMarked.finishRun
  · split
    · exact
        (finishSucceeded_beside run io hBeside).map _ _
          fun _ _ hNext => hNext.finishRun
    · exact
        (finishFailed_beside run _ io hBeside).map _ _
          fun _ _ hNext => hNext.finishRun

end Kron

namespace Kron

variable {cal : Calendar}
variable {codec : JsonCodec LogEntry}
variable {snaps : JsonCodec Snapshot}
variable {engine engine' : Engine}
variable {sec : Section}

/- The emptied engine is beside the engine. -/
theorem Engine.emptied_beside
    (engine : Engine) :
    engine.inner.Beside engine.inner.heap
      engine.emptied.inner :=
  ⟨rfl, fun _ hMem => Or.inr hMem⟩

/-
  What a section leaves in the heap was there before, or is
  what it would leave in a heap that was empty.
-/
theorem beside_step
    (hReopen : ∀ dataDir dir, sec ≠ .reopen dataDir dir)
    (hDispatch : sec.isDispatch = false)
    (hStep :
      engine.step cal codec snaps sec = some engine') :
    ∃ other,
      engine.emptied.step cal codec snaps sec =
          some other ∧
        ∀ entry ∈ engine'.inner.heap,
          entry ∈ other.inner.heap ∨
            entry ∈ engine.inner.heap := by
  have hBeside := engine.emptied_beside
  cases sec with
  | schedule call =>
      rcases Option.map_eq_some_iff.mp hStep with
        ⟨result, hCall, hEq⟩
      rcases scheduleWithOverlap_beside call hBeside result
          hCall with
        ⟨result', hCall', hNext⟩
      refine
        ⟨{ engine.emptied with inner := result'.1 }, ?_, ?_⟩
      · simp only [Engine.step, hCall', Option.map_some]
      · rw [← hEq]
        exact hNext.heap
  | start =>
      cases hStep
      refine ⟨_, rfl, ?_⟩
      unfold Engine.start
      split
      · exact fun _ hMem => Or.inr hMem
      · exact fun _ hMem => Or.inr hMem
  | dispatch now => cases hDispatch
  | spawn i =>
      simp only [Engine.step, Engine.spawn] at hStep ⊢
      split at hStep
      · rename_i due hLoop
        have hLoop' : engine.emptied.loop = .running due :=
          hLoop
        simp only [hLoop']
        split at hStep
        · cases hStep
        · rename_i entry hGet
          split at hStep
          · rename_i hStopping
            cases hStep
            refine ⟨_, if_pos hStopping, ?_⟩
            exact fun _ hMem => Or.inr hMem
          · rename_i hRunning
            split at hStep
            · rename_i hEarliest
              cases hStep
              refine
                ⟨_, (if_neg hRunning).trans
                  (if_pos hEarliest), ?_⟩
              exact fun _ hMem => Or.inr hMem
            · cases hStep
      · cases hStep
  | runStart i io =>
      simp only [Engine.step] at hStep ⊢
      split at hStep
      · cases hStep
      · rename_i entry hGet
        have hGet' : engine.emptied.spawned[i]? = some entry :=
          hGet
        rcases Option.map_eq_some_iff.mp hStep with
          ⟨result, hStart, hEq⟩
        rcases runTimerStart_beside entry io hBeside result
            hStart with
          ⟨result', hStart', hNext⟩
        simp only [hGet', hStart', Option.map_some]
        refine ⟨_, rfl, ?_⟩
        rw [← hEq]
        exact hNext.heap
  | runFinish i io =>
      simp only [Engine.step] at hStep ⊢
      split at hStep
      · cases hStep
      · rename_i run hGet
        have hGet' : engine.emptied.executing[i]? = some run :=
          hGet
        rcases Option.map_eq_some_iff.mp hStep with
          ⟨result, hFinish, hEq⟩
        rcases runTimerFinish_beside run io hBeside result
            hFinish with
          ⟨result', hFinish', hNext⟩
        simp only [hGet', hFinish', Option.map_some]
        refine ⟨_, rfl, ?_⟩
        rw [← hEq]
        exact hNext.heap
  | compact now later =>
      cases hStep
      exact ⟨_, rfl, fun _ hMem => Or.inr hMem⟩
  | reopen dataDir dir => exact (hReopen _ _ rfl).elim
  | shutdownBegin =>
      cases hStep
      refine ⟨_, rfl, ?_⟩
      unfold Engine.shutdownBegin
      split
      · exact fun _ hMem => Or.inr hMem
      · split
        · exact fun _ hMem => Or.inr hMem
        · exact fun _ hMem => Or.inr hMem
  | shutdownCheck =>
      simp only [Engine.step] at hStep ⊢
      split at hStep
      · rename_i hIdle
        cases hStep
        refine ⟨_, if_pos hIdle, ?_⟩
        exact fun _ hMem => Or.inr hMem
      · cases hStep
  | shutdownTimeout =>
      simp only [Engine.step] at hStep ⊢
      split at hStep
      · rename_i hWaiting
        cases hStep
        refine ⟨_, if_pos hWaiting, ?_⟩
        exact fun _ hMem => Or.inr hMem
      · cases hStep
  | shutdownEnd =>
      simp only [Engine.step] at hStep ⊢
      split at hStep
      · rename_i hIdle
        cases hStep
        refine ⟨_, if_pos hIdle, ?_⟩
        exact fun _ hMem => Or.inr hMem
      · cases hStep

end Kron

------------------------------------------------------------
-- The Loop Is Alert
------------------------------------------------------------

namespace Kron

/- No entry comes before the nearest deadline. -/
theorem TimerHeap.peekNextAt_le
    {heap : TimerHeap}
    {entry : ScheduledTimer}
    (hMem : entry ∈ heap) :
    ∃ t, heap.peekNextAt = some t ∧ t ≤ entry.nextRunAt := by
  have hTime :
      entry.nextRunAt ∈
        heap.map ScheduledTimer.nextRunAt :=
    List.mem_map_of_mem hMem
  unfold peekNextAt
  cases hMin :
      (heap.map ScheduledTimer.nextRunAt).min? with
  | none =>
      rw [List.min?_eq_none_iff] at hMin
      rw [hMin] at hTime
      cases hTime
  | some t =>
      have hLeast := (List.min?_eq_some_iff.mp hMin).2
      exact ⟨t, rfl, hLeast _ hTime⟩

/- The sleep ends by the time of the entry. -/
theorem sleepDurationUntil_le
    (t now : DateTime) :
    now + sleepDurationUntil (some t) now ≤ max now t := by
  unfold sleepDurationUntil
  simp only
  split
  · rw [Int.add_zero]
    exact le_max_left now t
  · rename_i hPos
    have hMilli : (1000000 : Int) ≠ 0 := by decide
    have hTrunc := Int.tdiv_mul_le (t - now) hMilli
    have hLe :
        (t - now).tdiv 1000000 * 1000000 ≤ t - now := by
      split at hTrunc
      · rw [Nat.cast_zero, Int.add_zero] at hTrunc
        exact hTrunc
      · -- a delta of the other sign does not reach one
        omega
    exact
      (Int.add_le_of_le_sub_left hLe).trans
        (le_max_right now t)

/-
  Without a permit, the deadline that the loop holds or
  sleeps for comes before every entry of the heap.
-/
def Sleeper.Early
    (phase : LoopPhase)
    (heap : TimerHeap) : Prop :=
  match phase with
  | .awake => True
  | .popped nextAt =>
      ∀ entry ∈ heap,
        ∃ t, nextAt = some t ∧ t ≤ entry.nextRunAt
  | .asleep since deadline =>
      ∀ entry ∈ heap, deadline ≤ max since entry.nextRunAt

/- A loop that sleeps has handed out what it popped. -/
structure Sleeper.Alert
    (s : Sleeper) : Prop where
  early :
    s.permit = false → Early s.phase s.engine.inner.heap
  idle :
    ∀ since deadline,
      s.phase = .asleep since deadline →
        s.engine.loop = .running []

variable {cal : Calendar}
variable {codec : JsonCodec LogEntry}
variable {snaps : JsonCodec Snapshot}

/- A loop at its top stays there through other sections. -/
theorem loop_running_of_step
    {engine engine' : Engine}
    {sec : Section}
    (hReopen : ∀ dataDir dir, sec ≠ .reopen dataDir dir)
    (hDispatch : sec.isDispatch = false)
    (hLoop : engine.loop = .running [])
    (hStep :
      engine.step cal codec snaps sec = some engine') :
    engine'.loop = .running [] := by
  cases sec with
  | schedule call =>
      rcases Option.map_eq_some_iff.mp hStep with
        ⟨_, _, rfl⟩
      exact hLoop
  | start =>
      cases hStep
      unfold Engine.start
      split
      · exact hLoop
      · rfl
  | dispatch now => cases hDispatch
  | spawn i =>
      simp only [Engine.step, Engine.spawn, hLoop,
        List.getElem?_nil] at hStep
      cases hStep
  | runStart i io =>
      simp only [Engine.step] at hStep
      split at hStep
      · cases hStep
      · rcases Option.map_eq_some_iff.mp hStep with
          ⟨_, _, rfl⟩
        exact hLoop
  | runFinish i io =>
      simp only [Engine.step] at hStep
      split at hStep
      · cases hStep
      · rcases Option.map_eq_some_iff.mp hStep with
          ⟨_, _, rfl⟩
        exact hLoop
  | compact now later =>
      cases hStep
      exact hLoop
  | reopen dataDir dir => exact (hReopen _ _ rfl).elim
  | shutdownBegin =>
      cases hStep
      unfold Engine.shutdownBegin
      split
      · exact hLoop
      · split
        · exact hLoop
        · exact hLoop
  | shutdownCheck =>
      simp only [Engine.step] at hStep
      split at hStep
      · cases hStep
        exact hLoop
      · cases hStep
  | shutdownTimeout =>
      simp only [Engine.step] at hStep
      split at hStep
      · cases hStep
        exact hLoop
      · cases hStep
  | shutdownEnd =>
      simp only [Engine.step] at hStep
      split at hStep
      · cases hStep
        exact hLoop
      · cases hStep

namespace Sleeper

/- Fewer entries are no later. -/
theorem Early.subset
    {phase : LoopPhase}
    {heap heap' : TimerHeap}
    (hEarly : Early phase heap)
    (hSubset : heap' ⊆ heap) :
    Early phase heap' := by
  cases phase with
  | awake => trivial
  | popped nextAt =>
      exact fun entry hMem => hEarly entry (hSubset hMem)
  | asleep since deadline =>
      exact fun entry hMem => hEarly entry (hSubset hMem)

/- A section that does not notify adds no entry. -/
theorem heap_subset_of_silent
    {engine engine' : Engine}
    {sec : Section}
    (hReopen : ∀ dataDir dir, sec ≠ .reopen dataDir dir)
    (hDispatch : sec.isDispatch = false)
    (hSilent : notifies cal codec snaps engine sec = false)
    (hStep :
      engine.step cal codec snaps sec = some engine') :
    engine'.inner.heap ⊆ engine.inner.heap := by
  rcases beside_step hReopen hDispatch hStep with
    ⟨other, hOther, hHeap⟩
  unfold notifies at hSilent
  simp only [hOther, Bool.not_eq_false',
    List.isEmpty_iff] at hSilent
  intro entry hMem
  rcases hHeap entry hMem with hNew | hOld
  · rw [hSilent] at hNew
    cases hNew
  · exact hOld

namespace Alert

variable {s s' : Sleeper}

theorem ofInner
    (inner : Inner) :
    (Sleeper.ofInner inner).Alert where
  early := fun _ => trivial
  idle := nofun

/- A loop that is awake pops and looks anew. -/
theorem awake
    (engine : Engine)
    (permit : Bool) :
    Sleeper.Alert
      { engine := engine
        phase := .awake
        permit := permit } where
  early := fun _ => trivial
  idle := nofun

/- A section of another thread. -/
theorem engineSection
    {sec : Section}
    {engine : Engine}
    (hAlert : s.Alert)
    (hReopen : ∀ dataDir dir, sec ≠ .reopen dataDir dir)
    (hDispatch : sec.isDispatch = false)
    (hStep :
      s.engine.step cal codec snaps sec = some engine) :
    Sleeper.Alert
      { s with
        engine := engine
        permit :=
          s.permit ||
            notifies cal codec snaps s.engine sec } where
  early := by
    intro hNone
    rcases Bool.or_eq_false_iff.mp hNone with
      ⟨hPermit, hSilent⟩
    exact
      (hAlert.early hPermit).subset
        (heap_subset_of_silent hReopen hDispatch hSilent
          hStep)
  idle := by
    intro since deadline hPhase
    exact
      loop_running_of_step hReopen hDispatch
        (hAlert.idle since deadline hPhase) hStep

/- The loop falls asleep until the deadline it holds. -/
theorem sleep
    {nextAt : Option DateTime}
    (hAlert : s.Alert)
    (hPhase : s.phase = .popped nextAt)
    (hLoop : s.engine.loop = .running [])
    (now : DateTime) :
    Sleeper.Alert
      { s with
        phase :=
          .asleep now
            (now + sleepDurationUntil nextAt now) } where
  early := by
    intro hPermit entry hMem
    have hEarly := hAlert.early hPermit
    rw [hPhase] at hEarly
    rcases hEarly entry hMem with ⟨t, rfl, hLe⟩
    calc
      now + sleepDurationUntil (some t) now
        ≤ max now t := sleepDurationUntil_le t now
      _ ≤ max now entry.nextRunAt := max_le_max_left now hLe
  idle := fun _ _ _ => hLoop

/- One step of any thread. -/
theorem step
    {label : SleepLabel}
    (hAlert : s.Alert)
    (hStep : s.step cal codec snaps label = some s') :
    s'.Alert := by
  cases label with
  | engine sec =>
      unfold Sleeper.step at hStep
      split at hStep
      · rcases Option.map_eq_some_iff.mp hStep with
          ⟨engine, _, rfl⟩
        exact .awake engine false
      · rename_i hReopen hLabel
        cases hLabel
        split at hStep
        · cases hStep
        · rename_i hDispatch
          rcases Option.map_eq_some_iff.mp hStep with
            ⟨engine, hTake, rfl⟩
          have hNotReopen :
              ∀ dataDir dir, sec ≠ .reopen dataDir dir := by
            intro dataDir dir hEq
            exact hReopen dataDir dir hEq
          exact
            hAlert.engineSection hNotReopen
              (Bool.eq_false_iff.mpr hDispatch) hTake
      all_goals contradiction
  | pop now =>
      simp only [Sleeper.step] at hStep
      split at hStep
      · rcases Option.map_eq_some_iff.mp hStep with
          ⟨engine, _, rfl⟩
        exact
          { early := fun _ _ hMem =>
              TimerHeap.peekNextAt_le hMem
            idle := nofun }
      · cases hStep
  | sleep now =>
      simp only [Sleeper.step] at hStep
      split at hStep
      · rename_i hPhase hLoop
        cases hStep
        exact hAlert.sleep hPhase hLoop now
      · cases hStep
  | notified =>
      simp only [Sleeper.step] at hStep
      split at hStep
      · split at hStep
        · cases hStep
          exact .awake s.engine false
        · cases hStep
      · cases hStep
  | elapsed now =>
      simp only [Sleeper.step] at hStep
      split at hStep
      · split at hStep
        · cases hStep
          exact .awake s.engine s.permit
        · cases hStep
      · cases hStep
  | notifyWaiters =>
      simp only [Sleeper.step] at hStep
      split at hStep
      · cases hStep
        exact .awake s.engine s.permit
      · cases hStep
        exact hAlert

end Alert

end Sleeper

end Kron

------------------------------------------------------------
-- No Entry Is Overslept
------------------------------------------------------------

namespace Kron

/- The entry is with the loop, or the loop has ended. -/
def Sleeper.Delivers
    (s : Sleeper)
    (entry : ScheduledTimer) : Prop :=
  match s.engine.loop with
  | .running due => entry ∈ due
  | .exited => s.engine.inner.runtime.shuttingDown = true
  | .idle => False

/- What is due is handed out when the loop pops. -/
theorem delivers_of_pop
    {cal : Calendar}
    {codec : JsonCodec LogEntry}
    {snaps : JsonCodec Snapshot}
    {s : Sleeper}
    {now : DateTime}
    {entry : ScheduledTimer}
    (hPhase : s.phase = .awake)
    (hLoop : s.engine.loop = .running [])
    (hMem : entry ∈ s.engine.inner.heap)
    (hDue : entry.nextRunAt ≤ now) :
    ∃ s',
      s.step cal codec snaps (.pop now) = some s' ∧
        s'.Delivers entry := by
  unfold Sleeper.step Engine.dispatch
  simp only [hPhase, hLoop]
  split
  · rename_i hDown
    exact ⟨_, rfl, hDown⟩
  · refine ⟨_, rfl, ?_⟩
    have hPopped :
        entry ∈ (s.engine.inner.heap.popDue now).1 := by
      unfold TimerHeap.popDue
      rw [List.partition_eq_filter_filter]
      exact
        List.mem_filter.mpr ⟨hMem, decide_eq_true hDue⟩
    exact hPopped

/-
  A loop that sleeps while an entry of the heap is due can
  wake, and then hands the entry out: it holds a permit, or
  its sleep is over.
-/
theorem no_entry_overslept
    (cal : Calendar)
    (codec : JsonCodec LogEntry)
    (snaps : JsonCodec Snapshot)
    (inner : Inner)
    (labels : List SleepLabel)
    (s : Sleeper)
    (hRun :
      Machine.run (Sleeper.step cal codec snaps)
        (Sleeper.ofInner inner) labels = some s)
    (since deadline now : DateTime)
    (hAsleep : s.phase = .asleep since deadline)
    (hSince : since ≤ now)
    (entry : ScheduledTimer)
    (hMem : entry ∈ s.engine.inner.heap)
    (hDue : entry.nextRunAt ≤ now) :
    ∃ wake s',
      (wake = .notified ∨ wake = .elapsed now) ∧
        Machine.run (Sleeper.step cal codec snaps) s
          [wake, .pop now] = some s' ∧
        s'.Delivers entry := by
  have hMeets :
      Machine.Meets (Sleeper.step cal codec snaps)
        (fun _ _ => True) (Sleeper.ofInner inner) labels :=
    Machine.meets_of_forall _ _ fun _ _ _ => trivial
  have hAlert : s.Alert :=
    Machine.run_invariant Sleeper.Alert
      (fun _ _ _ hInv _ hTake => hInv.step hTake)
      (.ofInner inner) hMeets hRun
  have hLoop := hAlert.idle since deadline hAsleep
  cases hPermit : s.permit with
  | true =>
      have hWake :
          s.step cal codec snaps .notified =
            some
              { s with phase := .awake, permit := false } := by
        simp only [Sleeper.step, hAsleep, hPermit, if_pos]
      rcases delivers_of_pop (s := ⟨s.engine, .awake, false⟩)
          rfl hLoop hMem hDue with
        ⟨s', hPop, hDelivers⟩
      refine ⟨.notified, s', Or.inl rfl, ?_, hDelivers⟩
      rw [Machine.run_cons_of_step hWake,
        Machine.run_cons_of_step hPop]
      rfl
  | false =>
      have hEarly := hAlert.early hPermit
      rw [hAsleep] at hEarly
      have hElapsed : deadline ≤ now :=
        (hEarly entry hMem).trans (max_le hSince hDue)
      have hWake :
          s.step cal codec snaps (.elapsed now) =
            some { s with phase := .awake } := by
        simp only [Sleeper.step, hAsleep, if_pos hElapsed]
      rcases delivers_of_pop
          (s := ⟨s.engine, .awake, s.permit⟩) rfl hLoop hMem
          hDue with
        ⟨s', hPop, hDelivers⟩
      refine ⟨.elapsed now, s', Or.inr rfl, ?_, hDelivers⟩
      rw [Machine.run_cons_of_step hWake,
        Machine.run_cons_of_step hPop]
      rfl

/-
  A timer is registered after the loop looked at the heap and
  before it sleeps.
-/
theorem no_entry_overslept_registered :
    ∃ s entry wake s',
      Machine.run
          (Sleeper.step utcCalendar createdCodec
            snapshotCodec)
          (Sleeper.ofInner (Inner.opened ∅ EngineState.new))
          [.engine .start, .pop (second 0),
            .engine (.schedule (callAt (everyMinute "a") 0)),
            .sleep (second 0)] = some s ∧
        s.permit = true ∧
        entry.nextRunAt = second 60 ∧
        Machine.run
            (Sleeper.step utcCalendar createdCodec
              snapshotCodec)
            s [wake, .pop (second 60)] = some s' ∧
        s'.Delivers entry := by
  have hEval :
      ∀ codec snaps,
        (Machine.run (Sleeper.step utcCalendar codec snaps)
          (Sleeper.ofInner (Inner.opened ∅ EngineState.new))
          [.engine .start, .pop (second 0),
            .engine (.schedule (callAt (everyMinute "a") 0)),
            .sleep (second 0)]).map
            (fun s =>
              (s.phase, s.permit, s.engine.inner.heap)) =
          some
            (.asleep (second 0)
                (second 0 + 100 * 1000000), true,
              [{ timerId := "a"
                 nextRunAt := second 60
                 runId := none
                 attempt := 1 }]) := by
    intro codec snaps
    cbv
  rcases Option.map_eq_some_iff.mp
      (hEval createdCodec snapshotCodec) with
    ⟨s, hRun, hEq⟩
  simp only [Prod.mk.injEq] at hEq
  rcases hEq with ⟨hPhase, hPermit, hHeap⟩
  have hMem :
      ({ timerId := "a"
         nextRunAt := second 60
         runId := none
         attempt := 1 } : ScheduledTimer) ∈
        s.engine.inner.heap := by
    rw [hHeap]
    exact List.mem_singleton_self _
  rcases no_entry_overslept utcCalendar createdCodec
      snapshotCodec (Inner.opened ∅ EngineState.new) _ s hRun
      (second 0) _ (second 60) hPhase (by decide) _ hMem
      (Int.le_refl _) with
    ⟨wake, s', _, hWake, hDelivers⟩
  exact ⟨s, _, wake, s', hRun, hPermit, rfl, hWake, hDelivers⟩

end Kron
