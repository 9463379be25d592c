import Kron.Embedded.LogText
import Kron.Embedded.Sections

/-
  What registering a timer promises.

  A call of `schedule_with_overlap` should either store a
  spec whose next run can be computed, or fail and leave
  everything as it was. The second half always holds. The
  first half does not: the error of `next_run_after` is
  dropped, after the spec has been logged and stored.

  Key definitions include:
    * `Kron.Inner.SameAs`
    * `Kron.HonestSchedule`
    * `Kron.ValidOrRefused`

  Key theorems include:
    * `Kron.StoreOutcome.stores`
    * `Kron.ScheduleOutcome.sameAs`
    * `Kron.schedule_honest_iff`
-/

------------------------------------------------------------
-- What A Call Should Do
------------------------------------------------------------

namespace Kron

/- The log, the state, the heap and the registry agree. -/
structure Inner.SameAs
    (inner inner' : Inner) : Prop where
  aof : aofBytes inner'.dir = aofBytes inner.dir
  state : inner'.state = inner.state
  heap : inner'.heap = inner.heap
  registry : inner'.registry = inner.registry

/- The next run of a stored spec can be computed. -/
def Inner.StoresValid
    (cal : Calendar)
    (inner : Inner)
    (id : TimerId)
    (now : DateTime) : Prop :=
  ∃ spec next,
    inner.state.specs[id]? = some spec ∧
      spec.schedule.nextRunAfter cal now spec.timezone =
        some (.ok next)

/-
  A call that returns `Ok` stores a valid spec, and one that
  returns an error changes nothing, unless its append failed
  after it wrote some bytes.
-/
def HonestSchedule
    (cal : Calendar)
    (codec : JsonCodec LogEntry)
    (inner : Inner)
    (call : ScheduleCall) : Prop :=
  (∀ inner',
    scheduleWithOverlap cal codec inner call =
        some (inner', .ok ()) →
      inner'.StoresValid cal call.id call.now) ∧
    ∀ inner' e,
      scheduleWithOverlap cal codec inner call =
          some (inner', .error e) →
        (∀ failure, call.io.failure = some failure →
          failure.written = 0) →
        inner.SameAs inner'

namespace ScheduleCall

/- The next run of the spec that a call asks for. -/
def nextRun
    (cal : Calendar)
    (call : ScheduleCall) :
    Option (Except KronError (Option DateTime)) :=
  call.schedule.nextRunAfter cal call.now
    (call.timezone.getD "UTC")

/- The spec that a call asks for is not the stored one. -/
def Stores
    (call : ScheduleCall)
    (inner : Inner) : Prop :=
  inner.state.specs[call.id]? ≠
    some (call.spec inner.state)

/- A next run of the timer is known, and stays so. -/
def KeepsNext
    (call : ScheduleCall)
    (inner : Inner) : Prop :=
  call.id ∈ inner.state.nextRuns ∧
    ∀ old, inner.state.specs[call.id]? = some old →
      old = call.spec inner.state

end ScheduleCall

/-
  The engine is stopping, the append fails, date arithmetic
  panics, or the schedule and the timezone are valid at the
  time of the call.
-/
def ValidOrRefused
    (cal : Calendar)
    (inner : Inner)
    (call : ScheduleCall) : Prop :=
  (inner.runtime.shuttingDown ∨ inner.runtime.stopped) ∨
    (call.Stores inner ∧ call.io.failure ≠ none) ∨
    (call.nextRun cal = none ∧ ¬ call.KeepsNext inner) ∨
    ∃ next, call.nextRun cal = some (.ok next)

end Kron

------------------------------------------------------------
-- Failing Calls
------------------------------------------------------------

namespace Kron

variable {cal : Calendar}
variable {codec : JsonCodec LogEntry}
variable {inner inner' : Inner}

/- An append that fails without writing keeps the log. -/
theorem Inner.sameAs_logOnly
    {event : Event}
    {io : AppendIo}
    {failure : AppendFailure}
    (hIo : io.failure = some failure)
    (hWritten : failure.written = 0) :
    inner.SameAs (inner.logOnly codec event io) := by
  refine ⟨?_, rfl, rfl, rfl⟩
  simp [Inner.logOnly, Inner.append, Inner.appended, hIo,
    hWritten, aofBytes, AppendOnlyLog.openFile]

/- A call that returns an error changes nothing. -/
theorem ScheduleOutcome.sameAs
    {call : ScheduleCall}
    {e : KronError}
    (hOutcome :
      ScheduleOutcome cal codec inner call inner'
        (.error e))
    (hWritten :
      ∀ failure, call.io.failure = some failure →
        failure.written = 0) :
    inner.SameAs inner' := by
  cases hOutcome with
  | stopped _ => exact ⟨rfl, rfl, rfl, rfl⟩
  | notCreated failure _ hIo =>
      exact Inner.sameAs_logOnly hIo (hWritten _ hIo)
  | notUpdated failure hIo =>
      exact Inner.sameAs_logOnly hIo (hWritten _ hIo)

end Kron

------------------------------------------------------------
-- Calls That Return Ok
------------------------------------------------------------

namespace Kron

variable {cal : Calendar}
variable {codec : JsonCodec LogEntry}
variable {inner stored : Inner}
variable {call : ScheduleCall}

/-
  The stored spec is the one asked for, and a next run is
  known afterwards exactly when it was kept.
-/
theorem StoreOutcome.stores
    (hStore :
      StoreOutcome codec inner (call.spec inner.state)
        call.io stored) :
    stored.state.specs[call.id]? =
        some (call.spec inner.state) ∧
      (call.id ∈ stored.state.nextRuns ↔
        call.KeepsNext inner) := by
  have hId : (call.spec inner.state).id = call.id := rfl
  cases hStore with
  | known hSpec =>
      rw [hId] at hSpec
      refine ⟨hSpec, fun hMem => ⟨hMem, ?_⟩, And.left⟩
      intro old hOld
      rw [hSpec] at hOld
      exact (Option.some.inj hOld).symm
  | created hSpec _ =>
      rw [hId] at hSpec
      refine
        ⟨by simp [Inner.logApply, EngineState.apply_specs,
          Event.spec?, hId], ?_⟩
      simp [Inner.logApply, Inner.logOnly, Inner.append,
        ScheduleCall.KeepsNext, hSpec]
  | updated old hSpec hNe _ =>
      rw [hId] at hSpec
      refine
        ⟨by simp [Inner.logApply, Inner.dropEntries,
          Inner.clearNextRun, EngineState.apply_specs,
          Event.spec?, hId], ?_⟩
      simp [Inner.logApply, Inner.dropEntries, Inner.logOnly,
        Inner.append, Inner.clearNextRun,
        ScheduleCall.KeepsNext, hSpec, hNe, hId]

/- A call that returns `Ok` has stored its spec. -/
theorem ScheduleOutcome.specs_of_ok
    {inner' : Inner}
    (hOutcome :
      ScheduleOutcome cal codec inner call inner' (.ok ())) :
    inner'.state.specs[call.id]? =
      some (call.spec inner.state) := by
  cases hOutcome with
  | scheduled stored _ _ hStore hNext =>
      have hSpecs :
          inner'.state.specs =
            (stored.register call.id call.fnName).state.specs
          := by
        cases hNext with
        | waiting _ => rfl
        | pushed _ _ _ _ _ => rfl
        | none _ _ _ _ _ _ => rfl
      rw [hSpecs, Inner.register_specs]
      exact hStore.stores.1

/- A call that returns `Ok` registers its callable. -/
theorem ScheduleOutcome.registry_of_ok
    {inner' : Inner}
    (hOutcome :
      ScheduleOutcome cal codec inner call inner' (.ok ())) :
    inner'.registry =
      inner.registry.insert call.id call.fnName := by
  cases hOutcome with
  | scheduled stored _ _ hStore hNext =>
      have hStored : stored.registry = inner.registry := by
        cases hStore with
        | known _ => rfl
        | created _ _ => rfl
        | updated _ _ _ _ => rfl
      have hSame :
          inner'.registry =
            (stored.register call.id call.fnName).registry
          := by
        cases hNext with
        | waiting _ => rfl
        | pushed _ _ _ _ _ => rfl
        | none _ _ _ _ _ _ => rfl
      rw [hSame, ← hStored]
      rfl

/-
  A call that returns `Ok` was not refused, its append
  succeeded, and its next run was computed unless one was
  kept.
-/
theorem ScheduleOutcome.computed
    {inner' : Inner}
    (hOutcome :
      ScheduleOutcome cal codec inner call inner' (.ok ())) :
    ¬ (inner.runtime.shuttingDown ∨
        inner.runtime.stopped) ∧
      ¬ (call.Stores inner ∧ call.io.failure ≠ none) ∧
      (call.nextRun cal = none → call.KeepsNext inner) := by
  cases hOutcome with
  | scheduled stored _ hRuns hStore hNext =>
      rcases hStore.stores with ⟨hSpec, hKeeps⟩
      refine ⟨hRuns, ?_, ?_⟩
      · rintro ⟨hStores, hFails⟩
        cases hStore with
        | known hKnown => exact hStores hKnown
        | created _ hIo => exact hFails hIo
        | updated _ _ _ hIo => exact hFails hIo
      · intro hPanics
        have hNever :
            ∀ spec result,
              (stored.register call.id
                  call.fnName).state.specs[call.id]? =
                  some spec →
                spec.schedule.nextRunAfter cal call.now
                    spec.timezone =
                  some result →
                False := by
          intro spec result hGet hAfter
          rw [Inner.register_specs, hSpec] at hGet
          cases hGet
          have hNone :
              (call.spec inner.state).schedule.nextRunAfter
                  cal call.now
                  (call.spec inner.state).timezone =
                none := hPanics
          rw [hNone] at hAfter
          cases hAfter
        cases hNext with
        | waiting hMem =>
            rw [Inner.register_nextRuns] at hMem
            exact hKeeps.mp hMem
        | pushed spec _ _ hGet hAfter =>
            exact (hNever _ _ hGet hAfter).elim
        | none spec _ _ hGet hAfter _ =>
            exact (hNever _ _ hGet hAfter).elim

/- A spec is stored where its append succeeds. -/
theorem Inner.storeSpec_of_ok
    (hStores :
      ¬ (call.Stores inner ∧ call.io.failure ≠ none)) :
    ∃ stored,
      inner.storeSpec codec (call.spec inner.state)
          call.io = (stored, .ok ()) ∧
        StoreOutcome codec inner (call.spec inner.state)
          call.io stored := by
  have hId : (call.spec inner.state).id = call.id := rfl
  have hAppends :
      call.Stores inner → call.io.failure = none := by
    intro hNew
    by_contra hFails
    exact hStores ⟨hNew, hFails⟩
  unfold Inner.storeSpec
  cases hSpec : inner.state.specs[call.id]? with
  | none =>
      have hIo : call.io.failure = none := by
        apply hAppends
        simp [ScheduleCall.Stores, hSpec]
      simp only [hId, hSpec]
      rcases inner.append_cases codec
          (.timerCreated (call.spec inner.state)) call.io
        with ⟨_, hAppend⟩ | ⟨_, hSome, _⟩
      · rw [hAppend]
        exact ⟨_, rfl, .created hSpec hIo⟩
      · rw [hIo] at hSome
        cases hSome
  | some old =>
      simp only [hId, hSpec]
      by_cases hSame : old = call.spec inner.state
      · rw [if_pos hSame]
        rw [hSame] at hSpec
        exact ⟨inner, rfl, .known hSpec⟩
      · have hIo : call.io.failure = none := by
          apply hAppends
          simpa [ScheduleCall.Stores, hSpec] using hSame
        rw [if_neg hSame]
        rcases inner.append_cases codec
            (.timerUpdated (call.spec inner.state)) call.io
          with ⟨_, hAppend⟩ | ⟨_, hSome, _⟩
        · rw [hAppend]
          exact ⟨_, rfl, .updated old hSpec hSame hIo⟩
        · rw [hIo] at hSome
          cases hSome

/-
  A call that is not refused, whose append succeeds and whose
  next run is kept or can be computed, returns `Ok`.
-/
theorem scheduleWithOverlap_of_computed
    (hRuns :
      ¬ (inner.runtime.shuttingDown ∨
          inner.runtime.stopped))
    (hStores :
      ¬ (call.Stores inner ∧ call.io.failure ≠ none))
    (hPanics :
      call.nextRun cal = none → call.KeepsNext inner) :
    ∃ inner',
      scheduleWithOverlap cal codec inner call =
        some (inner', .ok ()) := by
  rcases @Inner.storeSpec_of_ok codec inner call hStores with
    ⟨stored, hStored, hStore⟩
  rcases hStore.stores with ⟨hSpec, hKeeps⟩
  have hNext :
      ∃ inner',
        (stored.register call.id call.fnName).scheduleNext
            cal call.id call.now = some inner' := by
    unfold Inner.scheduleNext
    by_cases hMem : call.id ∈ stored.state.nextRuns
    · rw [if_pos (by rwa [Inner.register_nextRuns])]
      exact ⟨_, rfl⟩
    · rw [if_neg (by rwa [Inner.register_nextRuns]),
        Inner.register_specs, hSpec]
      have hAfter :
          (call.spec inner.state).schedule.nextRunAfter cal
              call.now (call.spec inner.state).timezone =
            call.nextRun cal := rfl
      simp only [hAfter]
      cases hResult : call.nextRun cal with
      | none => exact (hMem (hKeeps.mpr (hPanics hResult))).elim
      | some result =>
          cases result with
          | error e => exact ⟨_, rfl⟩
          | ok next =>
              cases next with
              | none => exact ⟨_, rfl⟩
              | some next => exact ⟨_, rfl⟩
  rcases hNext with ⟨inner', hNext⟩
  refine ⟨inner', ?_⟩
  unfold scheduleWithOverlap
  rw [if_neg hRuns, hStored]
  simp only [hNext, Option.map_some]

end Kron

------------------------------------------------------------
-- When A Call Is Honest
------------------------------------------------------------

namespace Kron

/-
  A call does what it should exactly when it is refused, or
  asks for a valid schedule and timezone.
-/
theorem schedule_honest_iff
    (cal : Calendar)
    (codec : JsonCodec LogEntry)
    (inner : Inner)
    (call : ScheduleCall) :
    HonestSchedule cal codec inner call ↔
      ValidOrRefused cal inner call := by
  constructor
  · rintro ⟨hOk, _⟩
    by_contra hNot
    simp only [ValidOrRefused, not_or] at hNot
    rcases hNot with ⟨hRuns, hStores, hPanics, hInvalid⟩
    have hComputed :
        call.nextRun cal = none → call.KeepsNext inner := by
      intro hNone
      by_contra hKeeps
      exact hPanics ⟨hNone, hKeeps⟩
    rcases @scheduleWithOverlap_of_computed cal codec inner
        call (not_or.mpr hRuns) hStores hComputed with
      ⟨inner', hCall⟩
    rcases hOk inner' hCall with
      ⟨spec, next, hSpec, hAfter⟩
    rw [(scheduleOutcome_of_eq_some hCall).specs_of_ok]
      at hSpec
    cases hSpec
    exact hInvalid ⟨next, hAfter⟩
  · intro hValid
    constructor
    · intro inner' hCall
      have hOutcome := scheduleOutcome_of_eq_some hCall
      rcases hOutcome.computed with
        ⟨hRuns, hStores, hComputed⟩
      rcases hValid with
        hDown | hFails | ⟨hNone, hKeeps⟩ | ⟨next, hNext⟩
      · exact (hRuns hDown).elim
      · exact (hStores hFails).elim
      · exact (hKeeps (hComputed hNone)).elim
      · exact
          ⟨call.spec inner.state, next,
            hOutcome.specs_of_ok, hNext⟩
    · intro inner' e hCall hWritten
      exact
        (scheduleOutcome_of_eq_some hCall).sameAs hWritten

/- A call with a timezone that does not exist. -/
def marsCall : ScheduleCall :=
  { callAt (everyMinute "a") 0 with
    timezone := some "Mars/Olympus" }

/-
  The call returns `Ok`: the timer is logged, but it has no
  next run.
-/
theorem schedule_not_honest_marsCall :
    ∃ inner',
      scheduleWithOverlap utcCalendar logCodec
          emptyEngine.inner marsCall =
        some (inner', .ok ()) ∧
      marsCall.nextRun utcCalendar =
        some (.error (.invalidTimezone "Mars/Olympus")) ∧
      "a" ∈ inner'.state.specs ∧
      inner'.heap = [] ∧
      ¬ HonestSchedule utcCalendar logCodec
        emptyEngine.inner marsCall := by
  generalize logCodec = codec
  have hEval :
      (scheduleWithOverlap utcCalendar codec
        emptyEngine.inner marsCall).map
          (fun r =>
            (r.2, decide ("a" ∈ r.1.state.specs),
              r.1.heap)) =
        some (.ok (), true, []) := by
    cbv
  have hInvalid :
      marsCall.nextRun utcCalendar =
        some (.error (.invalidTimezone "Mars/Olympus")) :=
    rfl
  rcases Option.map_eq_some_iff.mp hEval with
    ⟨⟨inner', result⟩, hCall, hView⟩
  simp only [Prod.mk.injEq, decide_eq_true_eq] at hView
  rcases hView with ⟨rfl, hStored, hHeap⟩
  refine ⟨inner', hCall, hInvalid, hStored, hHeap, ?_⟩
  rintro ⟨hOk, _⟩
  rcases hOk inner' hCall with ⟨spec, next, hSpec, hAfter⟩
  rw [(scheduleOutcome_of_eq_some hCall).specs_of_ok]
    at hSpec
  cases hSpec
  have hNext :
      marsCall.nextRun utcCalendar = some (.ok next) :=
    hAfter
  rw [hInvalid] at hNext
  cases hNext

end Kron
