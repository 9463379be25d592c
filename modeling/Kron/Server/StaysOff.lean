import Kron.Server.Occurrences

/-
  Timers that were cancelled or paused.

  A cancelled timer is to stay cancelled until it is created,
  updated or resumed. Cancelling leaves the active run of a
  timer alone, and every command that takes or ends a run
  writes the state of its timer without a look at it. A timer
  therefore stays off as long as none of its runs is taken or
  ended while it is off.

  Key definitions include:
    * `Kron.RaftCommand.switch?`
    * `Kron.offAfter`
    * `Kron.StaysOff`
    * `Kron.wakes`
    * `Kron.QuietWhileOff`

  Key theorems include:
    * `Kron.applyKronCommand_timerState`
    * `Kron.off_of_quiet`
    * `Kron.not_off_of_wakes`
    * `Kron.staysOff_iff_quietWhileOff`
-/

------------------------------------------------------------
-- Switching A Timer Off
------------------------------------------------------------

namespace Kron

/-
  What a command says about a timer: that it is off, in the
  given state, or that it is on again.
-/
def RaftCommand.switch?
    (t : TimerId) :
    RaftCommand → Option (Option TimerState)
| .cancelTimer timerId =>
    if timerId = t then some (some .cancelled) else none
| .pauseTimer timerId =>
    if timerId = t then some (some .paused) else none
| .createTimer spec _ =>
    if spec.id = t then some none else none
| .updateTimer spec _ =>
    if spec.id = t then some none else none
| .resumeTimer timerId _ =>
    if timerId = t then some none else none
| _ => none

/- The state in which a log leaves a timer off, if it does. -/
def offAfter
    (t : TimerId)
    (log : List RaftCommand) : Option TimerState :=
  log.foldl
    (fun off command => (command.switch? t).getD off) none

/- A timer is off: in the state asked for, never due. -/
structure Off
    (t : TimerId)
    (off : TimerState)
    (state : PersistedStateMachine) : Prop where
  asked :
    ∀ timer, state.timers[t]? = some timer →
      timer.state = off
  next : state.nextRuns[t]? = none

/- A timer is off wherever the log has left it off. -/
def StaysOff
    (cal : Calendar)
    (t : TimerId)
    (log : List RaftCommand) : Prop :=
  ∀ before, before <+: log →
    ∀ state, applyLog cal .default before = some state →
      ∀ off, offAfter t before = some off →
        Off t off state

/-
  The timer that a command writes because it takes or ends a
  run, and the state it writes. An expiry writes the timer of
  its replacement, if it has one.
-/
def runWrite
    (state : PersistedStateMachine) :
    RaftCommand → Option (TimerId × TimerState)
| .claimRun timerId _ _ _ _ _ =>
    if state.hasActive timerId then
      none
    else
      some (timerId, .running)
| .completeRun runId workerId token _ =>
    (state.ownedRun runId workerId token).map
      fun active => (active.timerId, .scheduled)
| .failRun runId workerId token _ _ =>
    (state.ownedRun runId workerId token).map
      fun active => (active.timerId, .dead)
| .expireRunLease runId none _ =>
    (state.activeRuns[runId]?).map
      fun active => (active.timerId, .dead)
| .expireRunLease runId (some run) _ =>
    (state.activeRuns[runId]?).map
      fun _ => (run.timer, .retrying)
| _ => none

/- A command takes or ends a run of a stored timer. -/
def wakes
    (t : TimerId)
    (state : PersistedStateMachine)
    (command : RaftCommand) : Bool :=
  (state.timers[t]?).isSome &&
    (runWrite state command).any fun write => write.1 == t

/- No run of the timer is taken or ended while it is off. -/
def QuietWhileOff
    (cal : Calendar)
    (t : TimerId)
    (log : List RaftCommand) : Prop :=
  ∀ before command, before ++ [command] <+: log →
    ∀ state, applyLog cal .default before = some state →
      (offAfter t before).isSome →
        wakes t state command = false

theorem offAfter_concat
    (t : TimerId)
    (log : List RaftCommand)
    (command : RaftCommand) :
    offAfter t (log ++ [command]) =
      (command.switch? t).getD (offAfter t log) := by
  simp [offAfter]

/- A log leaves a timer off by a cancel or a pause. -/
theorem offAfter_eq_some
    {t : TimerId}
    {log : List RaftCommand}
    {off : TimerState}
    (hOff : offAfter t log = some off) :
    off = .cancelled ∨ off = .paused := by
  induction log using List.reverseRecOn with
  | nil => cases hOff
  | append_singleton log command ih =>
      rw [offAfter_concat] at hOff
      cases hSwitch : command.switch? t with
      | none =>
          rw [hSwitch] at hOff
          exact ih hOff
      | some asked =>
          rw [hSwitch] at hOff
          have hAsked : asked = some off := hOff
          subst hAsked
          unfold RaftCommand.switch? at hSwitch
          split at hSwitch <;> simp_all

end Kron

------------------------------------------------------------
-- What A Command Does To A Timer
------------------------------------------------------------

namespace Kron

variable {cal : Calendar}
variable {state state' : PersistedStateMachine}
variable {t : TimerId}
variable {command : RaftCommand}

/- A cancel or a pause turns its timer off. -/
theorem applyKronCommand_switch
    {off : TimerState}
    (hApply :
      applyKronCommand cal state command = some state')
    (hSwitch : command.switch? t = some (some off)) :
    Off t off state' := by
  have hSet :
      Off t off
        ((state.setState t off).setNextRun t none) := by
    constructor
    · intro timer hGet
      rw [PersistedStateMachine.setNextRun_timers,
        state.get_setState, if_pos rfl,
        Option.map_eq_some_iff] at hGet
      rcases hGet with ⟨_, _, rfl⟩
      rfl
    · rw [PersistedStateMachine.get_setNextRun, if_pos rfl]
  unfold RaftCommand.switch? at hSwitch
  split at hSwitch
  · split at hSwitch
    · rename_i hTimer
      subst hTimer
      cases hSwitch
      cases hApply
      exact hSet
    · cases hSwitch
  · split at hSwitch
    · rename_i hTimer
      subst hTimer
      cases hSwitch
      cases hApply
      exact hSet
    · cases hSwitch
  all_goals simp at hSwitch

/- The state of a timer after a write for a run. -/
def writtenState
    (t : TimerId)
    (write : Option (TimerId × TimerState))
    (before : TimerState) : TimerState :=
  match write with
  | none => before
  | some (timerId, asked) =>
      if timerId = t then asked else before

/- A write to the state of one timer. -/
theorem state_of_write
    {timerId : TimerId}
    {asked : TimerState}
    {update : PersistedTimer → PersistedTimer}
    (hTimers :
      state'.timers[t]? =
        if timerId = t then (state.timers[t]?).map update
        else state.timers[t]?)
    (hUpdate : ∀ timer, (update timer).state = asked) :
    (state'.timers[t]?).map PersistedTimer.state =
      (state.timers[t]?).map fun timer =>
        writtenState t (some (timerId, asked))
          timer.state := by
  rw [hTimers]
  by_cases hTimer : timerId = t
  · cases state.timers[t]? with
    | none => simp [hTimer]
    | some timer => simp [hTimer, hUpdate, writtenState]
  · cases state.timers[t]? with
    | none => simp [hTimer]
    | some timer => simp [hTimer, writtenState]

/- A switch of another timer. -/
theorem rests_of_setState
    {timerId : TimerId}
    {asked : TimerState}
    {next : Option DateTime}
    (hId : timerId ≠ t) :
    ((state.setState timerId asked).setNextRun timerId
          next).timers[t]? = state.timers[t]? ∧
      ((state.setState timerId asked).setNextRun timerId
          next).nextRuns[t]? = state.nextRuns[t]? := by
  rw [PersistedStateMachine.setNextRun_timers,
    state.get_setState, if_neg hId,
    PersistedStateMachine.get_setNextRun, if_neg hId]
  exact ⟨rfl, rfl⟩

/-
  A command that neither switches a timer nor takes or ends
  a run leaves the timer and its next run.
-/
theorem applyKronCommand_rests
    (hApply :
      applyKronCommand cal state command = some state')
    (hSwitch : command.switch? t = none)
    (hWrite : runWrite state command = none) :
    state'.timers[t]? = state.timers[t]? ∧
      state'.nextRuns[t]? = state.nextRuns[t]? := by
  cases command with
  | createTimer spec next =>
      cases hApply
      have hId : spec.id ≠ t := by
        simpa [RaftCommand.switch?] using hSwitch
      rw [state.get_putTimer, if_neg hId,
        state.nextRuns_putTimer, if_neg hId]
      exact ⟨rfl, rfl⟩
  | updateTimer spec next =>
      cases hApply
      have hId : spec.id ≠ t := by
        simpa [RaftCommand.switch?] using hSwitch
      rw [state.get_putTimer, if_neg hId,
        state.nextRuns_putTimer, if_neg hId]
      exact ⟨rfl, rfl⟩
  | cancelTimer timerId =>
      cases hApply
      have hId : timerId ≠ t := by
        simpa [RaftCommand.switch?] using hSwitch
      exact rests_of_setState hId
  | pauseTimer timerId =>
      cases hApply
      have hId : timerId ≠ t := by
        simpa [RaftCommand.switch?] using hSwitch
      exact rests_of_setState hId
  | resumeTimer timerId next =>
      cases hApply
      have hId : timerId ≠ t := by
        simpa [RaftCommand.switch?] using hSwitch
      exact rests_of_setState hId
  | claimRun timerId runId workerId token attempt deadline =>
      rcases applyKronCommand_claimRun hApply with
        ⟨_, rfl⟩ | ⟨hActive, rfl⟩
      · exact ⟨rfl, rfl⟩
      · simp [runWrite, hActive] at hWrite
  | completeRun runId workerId token completedAt =>
      rcases applyKronCommand_completeRun hApply with
        ⟨_, rfl⟩ | ⟨active, hOwned, _⟩
      · exact ⟨rfl, rfl⟩
      · simp [runWrite, hOwned] at hWrite
  | failRun runId workerId token error failedAt =>
      rcases applyKronCommand_failRun hApply with
        ⟨_, rfl⟩ | ⟨active, hOwned, _⟩
      · exact ⟨rfl, rfl⟩
      · simp [runWrite, hOwned] at hWrite
  | expireRunLease runId replacement expiredAt =>
      rcases applyKronCommand_expireRunLease hApply with
        ⟨_, rfl⟩ | ⟨active, hGet, _⟩
      · exact ⟨rfl, rfl⟩
      · cases replacement <;>
          simp [runWrite, hGet] at hWrite
  | _ =>
      cases hApply
      exact ⟨rfl, rfl⟩

/-
  The state of a timer changes by its switches and by what
  is written for its runs.
-/
theorem applyKronCommand_timerState
    (hApply :
      applyKronCommand cal state command = some state')
    (hSwitch : command.switch? t = none) :
    (state'.timers[t]?).map PersistedTimer.state =
      (state.timers[t]?).map fun timer =>
        writtenState t (runWrite state command)
          timer.state := by
  cases hWrite : runWrite state command with
  | none =>
      rw [(applyKronCommand_rests hApply hSwitch hWrite).1]
      rfl
  | some write =>
      cases command with
      | claimRun timerId runId workerId token attempt
          deadline =>
          rcases applyKronCommand_claimRun hApply with
            ⟨hActive, rfl⟩ | ⟨hActive, rfl⟩
          · simp [runWrite, hActive] at hWrite
          · rw [runWrite, if_neg (by simp [hActive])] at hWrite
            cases hWrite
            exact
              state_of_write (state.get_startActive _ t)
                (fun _ => rfl)
      | completeRun runId workerId token completedAt =>
          rcases applyKronCommand_completeRun hApply with
            ⟨hOwned, rfl⟩ | ⟨active, hOwned, hComplete⟩
          · simp [runWrite, hOwned] at hWrite
          · rw [runWrite, hOwned] at hWrite
            cases hWrite
            exact
              state_of_write
                (state.get_completeActive hComplete t)
                (fun _ => rfl)
      | failRun runId workerId token error failedAt =>
          rcases applyKronCommand_failRun hApply with
            ⟨hOwned, rfl⟩ | ⟨active, hOwned, rfl⟩
          · simp [runWrite, hOwned] at hWrite
          · rw [runWrite, hOwned] at hWrite
            cases hWrite
            exact
              state_of_write (state.get_failActive _ _ _ _ t)
                (fun _ => rfl)
      | expireRunLease runId replacement expiredAt =>
          rcases applyKronCommand_expireRunLease hApply with
            ⟨hGet, rfl⟩ | ⟨active, hGet, rfl⟩
          · cases replacement <;>
              simp [runWrite, hGet] at hWrite
          · cases replacement with
            | none =>
                rw [runWrite, hGet] at hWrite
                cases hWrite
                exact
                  state_of_write
                    (state.get_expireActive _ _ _ t)
                    (fun _ => rfl)
            | some run =>
                rw [runWrite, hGet] at hWrite
                cases hWrite
                exact
                  state_of_write
                    (state.get_expireActive _ _ _ t)
                    (fun _ => rfl)
      | _ => cases hWrite

/- A timer gets a next run by its switches and its runs. -/
theorem applyKronCommand_nextRun
    (hApply :
      applyKronCommand cal state command = some state')
    (hSwitch : command.switch? t = none)
    (hQuiet : wakes t state command = false) :
    state'.nextRuns[t]? = state.nextRuns[t]? := by
  cases hWrite : runWrite state command with
  | none =>
      exact (applyKronCommand_rests hApply hSwitch hWrite).2
  | some write =>
      cases command with
      | claimRun timerId runId workerId token attempt
          deadline =>
          rcases applyKronCommand_claimRun hApply with
            ⟨_, rfl⟩ | ⟨_, rfl⟩
          · rfl
          · rfl
      | completeRun runId workerId token completedAt =>
          rcases applyKronCommand_completeRun hApply with
            ⟨_, rfl⟩ | ⟨active, hOwned, hComplete⟩
          · rfl
          · rw [state.nextRuns_completeActive hComplete]
            cases hStored : state.timers[t]? with
            | none => rfl
            | some timer =>
                have hOther : active.timerId ≠ t := by
                  intro hTimer
                  simp [wakes, runWrite, hStored, hOwned,
                    hTimer] at hQuiet
                exact if_neg hOther
      | failRun runId workerId token error failedAt =>
          rcases applyKronCommand_failRun hApply with
            ⟨_, rfl⟩ | ⟨active, _, rfl⟩
          · rfl
          · rfl
      | expireRunLease runId replacement expiredAt =>
          rcases applyKronCommand_expireRunLease hApply with
            ⟨_, rfl⟩ | ⟨active, _, rfl⟩
          · rfl
          · rw [state.expireActive_nextRuns]
      | _ => cases hWrite

/- No state that is written for a run is an off state. -/
theorem runWrite_ne_off
    {write : TimerId × TimerState}
    (hWrite : runWrite state command = some write) :
    write.2 ≠ .cancelled ∧ write.2 ≠ .paused := by
  unfold runWrite at hWrite
  split at hWrite
  · split at hWrite
    · cases hWrite
    · cases hWrite
      exact ⟨nofun, nofun⟩
  all_goals try cases hWrite
  all_goals
    rcases Option.map_eq_some_iff.mp hWrite with
      ⟨_, _, rfl⟩
    exact ⟨nofun, nofun⟩

/- A run that is taken or ended turns its timer on. -/
theorem not_off_of_wakes
    {off : TimerState}
    (hApply :
      applyKronCommand cal state command = some state')
    (hSwitch : command.switch? t = none)
    (hWakes : wakes t state command = true)
    (hOff : off = .cancelled ∨ off = .paused) :
    ¬ Off t off state' := by
  intro hStill
  rw [wakes, Bool.and_eq_true] at hWakes
  rcases hWakes with ⟨hStored, hAny⟩
  rcases Option.isSome_iff_exists.mp hStored with
    ⟨timer, hGet⟩
  rcases hWrite : runWrite state command with
    _ | ⟨timerId, asked⟩
  · simp [hWrite] at hAny
  · have hTimer : timerId = t := by
      simpa [hWrite] using hAny
    have hState := applyKronCommand_timerState hApply hSwitch
    rw [hGet, hWrite] at hState
    rcases Option.map_eq_some_iff.mp hState with
      ⟨timer', hGet', hAsked⟩
    rw [hStill.asked timer' hGet'] at hAsked
    have hWritten : off = asked :=
      hAsked.trans (if_pos hTimer)
    have hNe := runWrite_ne_off hWrite
    rcases hOff with rfl | rfl
    · exact hNe.1 hWritten.symm
    · exact hNe.2 hWritten.symm

/- A timer that is off stays so while its runs rest. -/
theorem off_of_quiet
    {off : TimerState}
    (hApply :
      applyKronCommand cal state command = some state')
    (hSwitch : command.switch? t = none)
    (hQuiet : wakes t state command = false)
    (hOff : Off t off state) :
    Off t off state' := by
  constructor
  · intro timer' hGet'
    have hState := applyKronCommand_timerState hApply hSwitch
    rw [hGet'] at hState
    rcases Option.map_eq_some_iff.mp hState.symm with
      ⟨timer, hGet, hSame⟩
    have hKept :
        writtenState t (runWrite state command) timer.state =
          timer.state := by
      rcases hWrite : runWrite state command with
        _ | ⟨timerId, asked⟩
      · rfl
      · have hOther : timerId ≠ t := by
          simpa [wakes, hGet, hWrite] using hQuiet
        exact if_neg hOther
    rw [← hSame, hKept]
    exact hOff.asked timer hGet
  · rw [applyKronCommand_nextRun hApply hSwitch hQuiet]
    exact hOff.next

end Kron

------------------------------------------------------------
-- Every Log
------------------------------------------------------------

namespace Kron

/- A log of quiet steps keeps every switched timer off. -/
theorem staysOff_of_quietWhileOff
    {cal : Calendar}
    {t : TimerId}
    {log : List RaftCommand}
    (hQuiet : QuietWhileOff cal t log) :
    StaysOff cal t log := by
  intro before
  -- the invariant is carried along the prefixes of the log
  induction before using List.reverseRecOn with
  | nil =>
      intro _ state _ off hOff
      cases hOff
  | append_singleton before command ih =>
      intro hPrefix state' hRun off hOff
      rw [applyLog, Machine.run_append,
        Option.bind_eq_some_iff] at hRun
      rcases hRun with ⟨state, hBefore, hLast⟩
      rcases Machine.run_cons_eq_some hLast with
        ⟨state'', hApply, hEnd⟩
      cases hEnd
      rw [offAfter_concat] at hOff
      cases hSwitch : command.switch? t with
      | some asked =>
          rw [hSwitch] at hOff
          have hAsked : asked = some off := hOff
          rw [hAsked] at hSwitch
          exact applyKronCommand_switch hApply hSwitch
      | none =>
          rw [hSwitch] at hOff
          have hOffBefore : offAfter t before = some off :=
            hOff
          have hWhole : before <+: log :=
            (List.prefix_append _ _).trans hPrefix
          exact
            off_of_quiet hApply hSwitch
              (hQuiet before command hPrefix state hBefore
                (by simp [hOffBefore]))
              (ih hWhole state hBefore off hOffBefore)

/-
  A timer stays off along a log exactly when no run of it is
  taken or ended while it is off.
-/
theorem staysOff_iff_quietWhileOff
    (cal : Calendar)
    (t : TimerId)
    (log : List RaftCommand)
    (final : PersistedStateMachine)
    (hRun : applyLog cal .default log = some final) :
    StaysOff cal t log ↔ QuietWhileOff cal t log := by
  refine ⟨?_, staysOff_of_quietWhileOff⟩
  intro hStays before command hPrefix state hBefore hOff
  rw [← Bool.not_eq_true]
  intro hWakes
  rcases Option.isSome_iff_exists.mp hOff with ⟨off, hOff⟩
  -- the whole log is applied, so this step is
  rcases hPrefix with ⟨after, rfl⟩
  rw [applyLog, List.append_assoc, Machine.run_append,
    Option.bind_eq_some_iff] at hRun
  rcases hRun with ⟨state₀, hBefore₀, hRest⟩
  cases Option.some.inj (hBefore.symm.trans hBefore₀)
  rcases Machine.run_cons_eq_some hRest with
    ⟨state', hApply, _⟩
  have hSwitch : command.switch? t = none := by
    cases command <;>
      first
      | rfl
      | simp [wakes, runWrite] at hWakes
  have hReached :
      applyLog cal .default (before ++ [command]) =
        some state' := by
    rw [applyLog, Machine.run_append, hBefore₀]
    simp [Machine.run, hApply]
  have hOffAfter :
      offAfter t (before ++ [command]) = some off := by
    rw [offAfter_concat, hSwitch]
    exact hOff
  exact
    not_off_of_wakes hApply hSwitch hWakes
      (offAfter_eq_some hOff)
      (hStays (before ++ [command])
        (List.prefix_append _ _) state' hReached off
        hOffAfter)

/- A cancelled timer whose run has ended before. -/
def cancelledAfter : List RaftCommand :=
  [sampleTimer 3,
    .claimRun "t" "r" "w" 1 1 (32 * nanosPerSecond),
    .completeRun "r" "w" 1 (3 * nanosPerSecond),
    .cancelTimer "t",
    .completeRun "r" "w" 1 (4 * nanosPerSecond)]

theorem staysOff_cancelledAfter :
    ∃ final,
      applyLog utcCalendar .default cancelledAfter =
          some final ∧
        StaysOff utcCalendar "t" cancelledAfter := by
  refine ⟨_, rfl, ?_⟩
  rw [staysOff_iff_quietWhileOff utcCalendar "t"
    cancelledAfter _ rfl]
  intro before command hPrefix state hRun hOff
  rcases hPrefix with ⟨after, hLog⟩
  rcases before with
    _ | ⟨c₁, _ | ⟨c₂, _ | ⟨c₃, _ | ⟨c₄, before⟩⟩⟩⟩
  · cases hLog
    cases hOff
  · cases hLog
    cases hOff
  · cases hLog
    cases hOff
  · cases hLog
    cases hOff
  · -- the timer is off at the last command only
    cases before with
    | nil =>
        cases hLog
        cases hRun
        decide +kernel
    | cons c₅ before =>
        have hLength := congrArg List.length hLog
        simp [cancelledAfter] at hLength

/- A timer that is cancelled while its run is active. -/
def cancelledDuring : List RaftCommand :=
  [sampleTimer 3,
    .claimRun "t" "r" "w" 1 1 (32 * nanosPerSecond),
    .cancelTimer "t",
    .completeRun "r" "w" 1 (3 * nanosPerSecond)]

/- The end of the run schedules the cancelled timer. -/
theorem cancelled_timer_scheduled :
    offAfter "t" cancelledDuring = some .cancelled ∧
      ∃ final,
        applyLog utcCalendar .default cancelledDuring =
            some final ∧
          (final.timers["t"]?).map PersistedTimer.state =
              some .scheduled ∧
            final.nextRuns["t"]? =
                some (4 * nanosPerSecond) ∧
              ¬ StaysOff utcCalendar "t"
                cancelledDuring := by
  have hView :
      (applyLog utcCalendar .default cancelledDuring).map
          (fun final =>
            ((final.timers["t"]?).map PersistedTimer.state,
              final.nextRuns["t"]?)) =
        some
          (some .scheduled, some (4 * nanosPerSecond)) := by
    decide +kernel
  rcases Option.map_eq_some_iff.mp hView with
    ⟨final, hRun, hFinal⟩
  have hState := congrArg Prod.fst hFinal
  have hNext := congrArg Prod.snd hFinal
  have hOff :
      offAfter "t" cancelledDuring = some .cancelled := by
    decide
  refine ⟨hOff, final, hRun, hState, hNext, ?_⟩
  intro hStays
  have hNone :=
    (hStays _ (List.prefix_refl _) final hRun _ hOff).next
  rw [hNone] at hNext
  cases hNext

end Kron
