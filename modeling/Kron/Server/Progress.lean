import Kron.Server.Cluster

/-
  Progress of schedules.

  A duration arrives as text, is an arbitrary `u64` of
  seconds, is cast to `i64` and is added to a date. The next
  run is later than the instant it is computed from, unless
  the period is zero or one of these steps leaves its range.

  Key definitions include:
    * `Kron.Schedule.MakesProgress`
    * `Kron.Schedule.Within`
    * `Kron.CreateTimerRequest.Within`

  Key theorems include:
    * `Kron.addSeconds_eq_some_iff`
    * `Kron.Schedule.makesProgress_iff`
    * `Kron.schedule_progress_iff`
-/

------------------------------------------------------------
-- Seconds
------------------------------------------------------------

namespace Kron

/- The cast subtracts `2 ^ 64` from what has the top bit. -/
theorem asI64_eq
    (seconds : UInt64) :
    asI64 seconds =
      if seconds.toNat < 2 ^ 63 then
        (seconds.toNat : Int)
      else
        (seconds.toNat : Int) - 2 ^ 64 := by
  have hToNat : seconds.toBitVec.toNat = seconds.toNat := rfl
  have hToInt : asI64 seconds = seconds.toBitVec.toInt := rfl
  rw [hToInt, BitVec.toInt_eq_toNat_cond, hToNat]
  split <;> split <;> omega

/- The sum is the date where no step leaves its range. -/
theorem addSeconds_eq_some_iff
    {t u : DateTime}
    {seconds : UInt64} :
    addSeconds t seconds = some u ↔
      (-maxDurationSeconds ≤ asI64 seconds ∧
          asI64 seconds ≤ maxDurationSeconds) ∧
        (minDateTime ≤ t + asI64 seconds * nanosPerSecond ∧
          t + asI64 seconds * nanosPerSecond ≤
            maxDateTime) ∧
        u = t + asI64 seconds * nanosPerSecond := by
  unfold addSeconds durationSeconds
  by_cases hDuration :
      -maxDurationSeconds ≤ asI64 seconds ∧
        asI64 seconds ≤ maxDurationSeconds
  · rw [if_pos hDuration, and_iff_right hDuration]
    simp only [bind, Option.bind_some, addDuration]
    split
    · rename_i hDate
      rw [and_iff_right hDate, Option.some.injEq, eq_comm]
    · rename_i hDate
      simp [hDate]
  · rw [if_neg hDuration]
    simp only [bind, Option.bind_none, reduceCtorEq,
      false_iff]
    exact fun h => hDuration h.1

/- The sum panics in no step. -/
theorem addSeconds_isSome_iff
    {t : DateTime}
    {seconds : UInt64} :
    (∃ u, addSeconds t seconds = some u) ↔
      (-maxDurationSeconds ≤ asI64 seconds ∧
          asI64 seconds ≤ maxDurationSeconds) ∧
        minDateTime ≤ t + asI64 seconds * nanosPerSecond ∧
        t + asI64 seconds * nanosPerSecond ≤
          maxDateTime := by
  simp only [addSeconds_eq_some_iff]
  constructor
  · rintro ⟨u, hDuration, hDate, _⟩
    exact ⟨hDuration, hDate⟩
  · rintro ⟨hDuration, hDate⟩
    exact ⟨_, hDuration, hDate, rfl⟩

end Kron

------------------------------------------------------------
-- Schedules
------------------------------------------------------------

namespace Kron

namespace Schedule

/- No panic, and a next run is later. -/
def MakesProgress
    (cal : Calendar)
    (schedule : Schedule)
    (after : DateTime)
    (tz : String) : Prop :=
  ∃ result,
    schedule.nextRunAfter cal after tz = some result ∧
      ∀ next, result = .ok (some next) → after < next

/-
  A period is at least one second and the date after it can
  be represented; a delay gives a date after its cast.
-/
def Within
    (after : DateTime) : Schedule → Prop
| .cron _ => True
| .every seconds =>
    1 ≤ seconds.toNat ∧
      after + seconds.toNat * nanosPerSecond ≤ maxDateTime
| .at_ _ => True
| .after seconds registeredAt =>
    (-maxDurationSeconds ≤ asI64 seconds ∧
        asI64 seconds ≤ maxDurationSeconds) ∧
      minDateTime ≤
          registeredAt + asI64 seconds * nanosPerSecond ∧
      registeredAt + asI64 seconds * nanosPerSecond ≤
        maxDateTime

variable {cal : Calendar}
variable {after : DateTime}
variable {tz : String}

/- The period that can be added is a positive one. -/
theorem every_within_iff
    {seconds : UInt64}
    (hFirst : 0 ≤ after) :
    (∃ next,
        addSeconds after seconds = some next ∧
          after < next) ↔
      (Schedule.every seconds).Within after := by
  have hNanos : nanosPerSecond = 1000000000 := rfl
  have hMin : minDateTime = -8334601228800000000000 := rfl
  have hMax : maxDateTime = 8210266876799999999999 := rfl
  have hLong : maxDurationSeconds = 9223372036854775 := rfl
  simp only [addSeconds_eq_some_iff, Within, hNanos, hMin,
    hMax, hLong, asI64_eq]
  unfold DateTime at *
  constructor
  · rintro ⟨next, ⟨_, hDate, rfl⟩, hLater⟩
    split at hLater
    · rename_i hSmall
      rw [if_pos hSmall] at hDate
      exact ⟨by omega, hDate.2⟩
    · have hTop := seconds.toNat_lt
      omega
  · rintro ⟨hOne, hDate⟩
    have hSmall : seconds.toNat < 2 ^ 63 := by
      by_contra hLarge
      omega
    rw [if_pos hSmall]
    exact
      ⟨_, ⟨⟨by omega, by omega⟩, ⟨by omega, hDate⟩, rfl⟩,
        by omega⟩

/- Progress of every schedule, from text or not. -/
theorem makesProgress_iff
    (hCron :
      ∀ expr tz after next,
        cal.cronAfter expr tz after = .ok (some next) →
          after < next)
    (schedule : Schedule)
    (hFirst : 0 ≤ after) :
    schedule.MakesProgress cal after tz ↔
      (cal.knowsTimezone tz = true →
        schedule.Within after) := by
  unfold MakesProgress nextRunAfter
  by_cases hZone : cal.knowsTimezone tz = true
  · rw [if_pos hZone, forall_prop_of_true hZone]
    cases schedule with
    | cron expr =>
        simp only [Within, iff_true]
        cases hNext :
            cal.cronAfter ("0 " ++ expr ++ " *") tz
              after with
        | error e =>
            refine ⟨_, rfl, ?_⟩
            intro time hTime
            cases hTime
        | ok next =>
            refine ⟨_, rfl, ?_⟩
            rintro time hTime
            cases hTime
            exact hCron _ _ _ _ hNext
    | every seconds =>
        rw [← every_within_iff hFirst]
        constructor
        · rintro ⟨result, hMap, hLater⟩
          rcases Option.map_eq_some_iff.mp hMap with
            ⟨next, hAdd, rfl⟩
          exact ⟨next, hAdd, hLater next rfl⟩
        · rintro ⟨next, hAdd, hLater⟩
          refine
            ⟨.ok (some next),
              Option.map_eq_some_iff.mpr ⟨next, hAdd, rfl⟩,
              ?_⟩
          · rintro time hTime
            cases hTime
            exact hLater
    | at_ time =>
        simp only [Within, iff_true]
        refine ⟨_, rfl, ?_⟩
        intro next hNext
        have hAt :
            nextRunAfter cal (.at_ time) after tz =
              some (.ok (some next)) := by
          simp only [nextRunAfter, if_pos hZone]
          rw [hNext]
        rcases nextRunAfter_at hAt with ⟨rfl, hLater⟩
        exact hLater
    | after seconds registeredAt =>
        simp only [Within]
        rw [← addSeconds_isSome_iff]
        constructor
        · rintro ⟨result, hMap, _⟩
          rcases Option.map_eq_some_iff.mp hMap with
            ⟨fireAt, hAdd, _⟩
          exact ⟨fireAt, hAdd⟩
        · rintro ⟨fireAt, hAdd⟩
          refine
            ⟨_, Option.map_eq_some_iff.mpr
              ⟨fireAt, hAdd, rfl⟩, ?_⟩
          intro next hNext
          have hAt :
              nextRunAfter cal (.at_ fireAt) after tz =
                some (.ok (some next)) := by
            simp only [nextRunAfter, if_pos hZone]
            exact congrArg some hNext
          rcases nextRunAfter_at hAt with ⟨rfl, hLater⟩
          exact hLater
  · simp only [if_neg hZone]
    refine iff_of_true ⟨_, rfl, ?_⟩ ?_
    · intro time hTime
      cases hTime
    · intro hKnown
      exact absurd hKnown hZone

end Schedule

end Kron

------------------------------------------------------------
-- Requests
------------------------------------------------------------

namespace Kron

/- The duration of the request stays within the calendar. -/
def CreateTimerRequest.Within
    (request : CreateTimerRequest)
    (registeredAt after : DateTime) : Prop :=
  (∀ text seconds,
      request.every = some text →
        parseDurationStr text = .ok seconds →
          (Schedule.every seconds).Within after) ∧
    ∀ text seconds,
      request.after = some text →
        parseDurationStr text = .ok seconds →
          (Schedule.after seconds registeredAt).Within after

/- The schedule of a request has the duration of its text. -/
theorem within_of_parseRequestSchedule
    {cal : Calendar}
    {request : CreateTimerRequest}
    {registeredAt after : DateTime}
    {schedule : Schedule}
    (hParse :
      parseRequestSchedule cal request registeredAt =
        .ok schedule) :
    schedule.Within after ↔
      request.Within registeredAt after := by
  unfold CreateTimerRequest.Within
  unfold parseRequestSchedule at hParse
  split at hParse
  · rename_i hEvery hAfter _
    cases hParse
    simp [Schedule.Within, hEvery, hAfter]
  · rename_i every hCron hEvery hAfter hAt
    cases hText : parseDurationStr every with
    | error e =>
        rw [hText] at hParse
        cases hParse
    | ok seconds =>
        rw [hText] at hParse
        cases hParse
        simp only [hEvery, hAfter, Option.some.injEq,
          reduceCtorEq, false_imp_iff, implies_true,
          and_true]
        constructor
        · rintro hWithin text seconds' rfl hSeconds
          rw [hText] at hSeconds
          cases hSeconds
          exact hWithin
        · exact fun h => h every seconds rfl hText
  · rename_i delay hCron hEvery hAfter hAt
    cases hText : parseDurationStr delay with
    | error e =>
        rw [hText] at hParse
        cases hParse
    | ok seconds =>
        rw [hText] at hParse
        cases hParse
        simp only [hEvery, hAfter, Option.some.injEq,
          reduceCtorEq, false_imp_iff, implies_true,
          true_and]
        constructor
        · rintro hWithin text seconds' rfl hSeconds
          rw [hText] at hSeconds
          cases hSeconds
          exact hWithin
        · exact fun h => h delay seconds rfl hText
  · rename_i hCron hEvery hAfter hAt
    split at hParse
    · cases hParse
      simp [Schedule.Within, hEvery, hAfter]
    · cases hParse
  · cases hParse

/-
  The schedule of an accepted request makes progress, at
  any time from 1970 to 9999, if and only if its timezone is
  unknown or its duration stays within the calendar.
-/
theorem schedule_progress_iff
    (cal : Calendar)
    (hCron :
      ∀ expr tz after next,
        cal.cronAfter expr tz after = .ok (some next) →
          after < next)
    (request : CreateTimerRequest)
    (registeredAt : DateTime)
    (schedule : Schedule)
    (hParse :
      parseRequestSchedule cal request registeredAt =
        .ok schedule)
    (after : DateTime)
    (hYears :
      second 0 ≤ after ∧ after < second 253402300800)
    (tz : String) :
    schedule.MakesProgress cal after tz ↔
      (cal.knowsTimezone tz = true →
        request.Within registeredAt after) := by
  rw [← within_of_parseRequestSchedule hParse]
  exact Schedule.makesProgress_iff hCron schedule hYears.1

/- A request for a period. -/
def everyRequest
    (every : String) : CreateTimerRequest where
  name := "a"
  tenantId := none
  cron := none
  every := some every
  after := none
  at_ := none
  timezone := none
  maxAttempts := none
  task := "sync"
  payload := none

/- A period of ninety seconds makes progress. -/
theorem schedule_progress_iff_ninety :
    parseRequestSchedule utcCalendar (everyRequest "90s")
          (second 0) = .ok (.every 90) ∧
      (Schedule.every 90).MakesProgress utcCalendar
        (second 60) "UTC" := by
  have hText : parseDurationStr "90s" = .ok 90 := by
    decide +kernel
  have hParse :
      parseRequestSchedule utcCalendar (everyRequest "90s")
          (second 0) = .ok (.every 90) := by
    simp only [parseRequestSchedule, everyRequest, hText]
    rfl
  refine ⟨hParse, ?_⟩
  rw [schedule_progress_iff utcCalendar
    (by simp [utcCalendar]) (everyRequest "90s") (second 0)
    (.every 90) hParse (second 60)
    ⟨by decide, by decide⟩ "UTC"]
  intro _
  refine ⟨?_, by simp [everyRequest]⟩
  intro text seconds hEvery hSeconds
  cases hEvery
  rw [hText] at hSeconds
  cases hSeconds
  exact ⟨by decide, by decide⟩

/-
  A period of no seconds gives the instant itself, and one of
  too many panics.
-/
theorem schedule_no_progress :
    parseRequestSchedule utcCalendar (everyRequest "0s")
          (second 0) = .ok (.every 0) ∧
      (Schedule.every 0).nextRunAfter utcCalendar
          (second 60) "UTC" =
        some (.ok (some (second 60))) ∧
      ¬ (Schedule.every 0).MakesProgress utcCalendar
          (second 60) "UTC" ∧
      parseRequestSchedule utcCalendar
          (everyRequest "9223372036854775807s")
          (second 0) =
        .ok (.every 9223372036854775807) ∧
      (Schedule.every 9223372036854775807).nextRunAfter
          utcCalendar (second 60) "UTC" =
        none := by
  have hZero : parseDurationStr "0s" = .ok 0 := by
    decide +kernel
  have hLong :
      parseDurationStr "9223372036854775807s" =
        .ok 9223372036854775807 := by
    decide +kernel
  have hSame :
      (Schedule.every 0).nextRunAfter utcCalendar
          (second 60) "UTC" =
        some (.ok (some (second 60))) := by
    decide +kernel
  refine ⟨?_, hSame, ?_, ?_, by decide +kernel⟩
  · simp only [parseRequestSchedule, everyRequest, hZero]
    rfl
  · rintro ⟨result, hNext, hLater⟩
    rw [hSame] at hNext
    cases hNext
    exact lt_irrefl _ (hLater _ rfl)
  · simp only [parseRequestSchedule, everyRequest, hLong]
    rfl

end Kron
