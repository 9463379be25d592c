import Kron.Lib.BTreeMap
import Kron.Lib.Codec

/-
  Instants, durations and schedules.

  An instant is a number of nanoseconds since the Unix
  epoch. Date arithmetic panics outside the range of
  representable dates, so it returns `none` there. The
  timezone database and the cron crate are a parameter.

  Key definitions include:
    * `Kron.DateTime`
    * `Kron.addSeconds`
    * `Kron.KronError`
    * `Kron.Calendar`
    * `Kron.parseDurationStr`
    * `Kron.Overflow.parseDurationStr`
    * `Kron.Overflow.ParsesExactly`
    * `Kron.Schedule`
    * `Kron.Schedule.nextRunAfter`
    * `Kron.Schedule.isOneShot`

  Key theorems include:
    * `Kron.parseU64_toString`
    * `Kron.parsesExactly_iff`
-/

------------------------------------------------------------
-- Errors
------------------------------------------------------------

namespace Kron

/- The error type of the crate. -/
inductive KronError where
| invalidCron (message : String)
| invalidTimezone (name : String)
| timerNotFound (name : String)
| logIo (message : String)
| logSerde (source : JsonError)
| corruptLog (path : String) (line : Nat)
    (source : JsonError)
| alreadyStarted
| alreadyStopped
| shutdownTimeout (timeoutMs : Nat)
| dataDirLocked (path : String)
| invalidSnapshot (message : String)
| ipcUnavailable (message : String)
deriving DecidableEq, Repr

end Kron

------------------------------------------------------------
-- Instants And Durations
------------------------------------------------------------

namespace Kron

/- Nanoseconds since the Unix epoch, in UTC. -/
abbrev DateTime :=
  Int

def nanosPerSecond : Int :=
  1000000000

/- The first representable instant, in year -262143. -/
def minDateTime : DateTime :=
  -8334601228800 * nanosPerSecond

/- The last representable instant, in year 262142. -/
def maxDateTime : DateTime :=
  8210266876799 * nanosPerSecond + 999999999

/- The largest argument of `Duration::seconds`. -/
def maxDurationSeconds : Int :=
  9223372036854775

/- The cast `seconds as i64`. -/
def asI64
    (seconds : UInt64) : Int :=
  seconds.toInt64.toInt

/- Small values keep their sign. -/
theorem asI64_nonneg
    {seconds : UInt64}
    (hFits : seconds.toNat < 2 ^ 63) :
    0 ≤ asI64 seconds := by
  have hToNat : seconds.toBitVec.toNat = seconds.toNat := rfl
  have hToInt : asI64 seconds = seconds.toBitVec.toInt := rfl
  rw [hToInt, BitVec.toInt_eq_toNat_of_lt]
  · exact Int.natCast_nonneg _
  · omega

/- `Duration::seconds`, which panics out of range. -/
def durationSeconds
    (seconds : Int) : Option Int :=
  if -maxDurationSeconds ≤ seconds ∧
      seconds ≤ maxDurationSeconds then
    some (seconds * nanosPerSecond)
  else
    none

/- Adding a duration panics out of the date range. -/
def addDuration
    (t : DateTime)
    (d : Int) : Option DateTime :=
  if minDateTime ≤ t + d ∧ t + d ≤ maxDateTime then
    some (t + d)
  else
    none

/- `t + Duration::seconds(seconds as i64)`. -/
def addSeconds
    (t : DateTime)
    (seconds : UInt64) : Option DateTime := do
  addDuration t (← durationSeconds (asI64 seconds))

end Kron

------------------------------------------------------------
-- Durations In Text
------------------------------------------------------------

namespace Kron

/- The value of a decimal digit. -/
private def digit?
    (c : Char) : Option Nat :=
  if c.isDigit then some (c.toNat - '0'.toNat) else none

/- The number with the given decimal digits. -/
private def digitsValue
    (n : Nat) :
    List Char → Option Nat
| [] => some n
| c :: cs => do digitsValue (10 * n + (← digit? c)) cs

/- `str::parse::<u64>`, which accepts a leading plus. -/
def parseU64
    (s : String) : Option UInt64 :=
  let digits :=
    match s.toList with
    | '+' :: cs => cs
    | cs => cs
  if digits.isEmpty then
    none
  else
    match digitsValue 0 digits with
    | none => none
    | some n =>
        if n < 2 ^ 64 then some (UInt64.ofNat n) else none

/- The seconds of a duration unit. -/
private def unitSeconds? : Char → Option UInt64
| 's' => some 1
| 'm' => some 60
| 'h' => some 3600
| 'd' => some 86400
| _ => none

/- Parse `30m`, `1h` or `90s` into seconds. -/
def parseDurationStr
    (s : String) : Except KronError UInt64 :=
  let s := Text.trim s
  match s.toList.getLast?.bind unitSeconds? with
  | none =>
      .error (.invalidCron
        ("duration must end with s/m/h/d: " ++ s))
  | some unit =>
      match parseU64 (String.ofList s.toList.dropLast) with
      | none =>
          .error (.invalidCron ("invalid duration: " ++ s))
      | some n =>
          -- the product wraps in a release build
          .ok (n * unit)

end Kron

------------------------------------------------------------
-- Numerals
------------------------------------------------------------

namespace Kron

private theorem digitsValue_eq
    {cs : List Char}
    (hDigits : ∀ c ∈ cs, c.isDigit = true)
    (n : Nat) :
    digitsValue n cs = some (Nat.ofDigitChars 10 cs n) := by
  induction cs generalizing n with
  | nil => simp [digitsValue]
  | cons c cs ih =>
      have hRest := ih fun d hMem =>
        hDigits d (List.mem_cons_of_mem _ hMem)
      simp [digitsValue, digit?,
        hDigits c List.mem_cons_self, hRest,
        Nat.ofDigitChars_cons]

/- A decimal numeral in range parses to its number. -/
theorem parseU64_toString
    {n : Nat}
    (hRange : n < 2 ^ 64) :
    parseU64 (toString n) = some (UInt64.ofNat n) := by
  have hChars :
      (toString n).toList = Nat.toDigits 10 n := by
    rw [Nat.toString_eq_repr, Nat.toList_repr]
  have hDigits : ∀ c ∈ Nat.toDigits 10 n, c.isDigit = true :=
    fun c hMem =>
      Nat.isDigit_of_mem_toDigits (by decide) (by decide) hMem
  have hNe : Nat.toDigits 10 n ≠ [] := Nat.toDigits_ne_nil
  unfold parseU64
  rw [hChars]
  split
  · rename_i cs hPlus
    rw [hPlus] at hDigits
    cases hDigits '+' List.mem_cons_self
  · simp only [digitsValue_eq hDigits,
      Nat.ofDigitChars_ten_toDigits, if_pos hRange]
    simp [hNe]

end Kron

------------------------------------------------------------
-- Durations That Overflow
------------------------------------------------------------

namespace Kron

/-
  What a product out of range does: it wraps in a release
  build, and panics in a build with overflow checks.
-/
inductive Overflow where
| wraps
| panics
deriving DecidableEq, Repr

/- A product of `u64`; `none` is a panic. -/
def Overflow.mul
    (overflow : Overflow)
    (a b : UInt64) : Option UInt64 :=
  match overflow with
  | .wraps => some (a * b)
  | .panics =>
      if a.toNat * b.toNat < 2 ^ 64 then
        some (a * b)
      else
        none

/- `parse_duration_str` in either build. -/
def Overflow.parseDurationStr
    (overflow : Overflow)
    (s : String) : Option (Except KronError UInt64) :=
  let s := Text.trim s
  match s.toList.getLast?.bind unitSeconds? with
  | none =>
      some (.error (.invalidCron
        ("duration must end with s/m/h/d: " ++ s)))
  | some unit =>
      match parseU64 (String.ofList s.toList.dropLast) with
      | none =>
          some (.error (.invalidCron
            ("invalid duration: " ++ s)))
      | some n => (overflow.mul n unit).map .ok

/- The units of durations, with their seconds. -/
def durationUnits : List (Char × UInt64) :=
  [('s', 1), ('m', 60), ('h', 3600), ('d', 86400)]

/- The text is, but for white space, a number of units. -/
def IsNumberOf
    (s : String)
    (n unit : UInt64) : Prop :=
  ∃ numeral c,
    (Text.trim s).toList = numeral.toList ++ [c] ∧
      (c, unit) ∈ durationUnits ∧
      parseU64 numeral = some n

variable {overflow : Overflow}
variable {s : String}
variable {n unit : UInt64}

theorem Overflow.parseDurationStr_wraps
    (s : String) :
    Overflow.parseDurationStr .wraps s =
      some (Kron.parseDurationStr s) := by
  unfold Overflow.parseDurationStr Kron.parseDurationStr
  dsimp only
  split
  · rfl
  · split
    · rfl
    · rfl

theorem Overflow.mul_of_lt
    (hLt : n.toNat * unit.toNat < 2 ^ 64) :
    overflow.mul n unit = some (n * unit) := by
  cases overflow with
  | wraps => rfl
  | panics => exact if_pos hLt

theorem toNat_mul_of_lt
    (hLt : n.toNat * unit.toNat < 2 ^ 64) :
    (n * unit).toNat = n.toNat * unit.toNat := by
  rw [UInt64.toNat_mul]
  exact Nat.mod_eq_of_lt hLt

private theorem unitSeconds?_eq_some_iff
    {c : Char} :
    unitSeconds? c = some unit ↔
      (c, unit) ∈ durationUnits := by
  unfold unitSeconds? durationUnits
  split
  · simp [eq_comm]
  · simp [eq_comm]
  · simp [eq_comm]
  · simp [eq_comm]
  · rename_i hSeconds hMinutes hHours hDays
    constructor
    · nofun
    · intro hMem
      simp only [List.mem_cons, Prod.mk.injEq,
        List.not_mem_nil, or_false] at hMem
      rcases hMem with ⟨h, _⟩ | ⟨h, _⟩ | ⟨h, _⟩ | ⟨h, _⟩
      · exact absurd h hSeconds
      · exact absurd h hMinutes
      · exact absurd h hHours
      · exact absurd h hDays

/- A text is the number of one unit at most. -/
theorem IsNumberOf.unique
    {n' unit' : UInt64}
    (hText : IsNumberOf s n unit)
    (hText' : IsNumberOf s n' unit') :
    n = n' ∧ unit = unit' := by
  rcases hText with ⟨numeral, c, hSplit, hUnit, hNumeral⟩
  rcases hText' with ⟨numeral', c', hSplit', hUnit', hNumeral'⟩
  rw [hSplit] at hSplit'
  rcases List.append_singleton_inj.mp hSplit' with
    ⟨hList, rfl⟩
  have hEq : numeral = numeral' :=
    String.toList_injective hList
  subst hEq
  have hUnits :=
    (unitSeconds?_eq_some_iff.mpr hUnit).symm.trans
      (unitSeconds?_eq_some_iff.mpr hUnit')
  exact
    ⟨Option.some.inj (hNumeral.symm.trans hNumeral'),
      Option.some.inj hUnits⟩

/- A number of units is the product. -/
theorem Overflow.parseDurationStr_of_isNumberOf
    (overflow : Overflow)
    (hText : IsNumberOf s n unit) :
    overflow.parseDurationStr s =
      (overflow.mul n unit).map .ok := by
  rcases hText with ⟨numeral, c, hSplit, hUnit, hNumeral⟩
  have hUnit' : unitSeconds? c = some unit :=
    unitSeconds?_eq_some_iff.mpr hUnit
  unfold Overflow.parseDurationStr
  dsimp only
  rw [hSplit, List.getLast?_concat, Option.bind_some, hUnit']
  dsimp only
  rw [List.dropLast_concat, String.ofList_toList, hNumeral]

/- Every other text is an error. -/
theorem Overflow.parseDurationStr_of_not
    (overflow : Overflow)
    (hNot : ∀ n unit, ¬ IsNumberOf s n unit) :
    ∃ err,
      overflow.parseDurationStr s = some (.error err) := by
  unfold Overflow.parseDurationStr
  dsimp only
  split
  · exact ⟨_, rfl⟩
  · rename_i unit hUnit
    split
    · exact ⟨_, rfl⟩
    · rename_i n hNumeral
      rcases Option.bind_eq_some_iff.mp hUnit with
        ⟨c, hLast, hUnit⟩
      refine absurd ?_ (hNot n unit)
      refine
        ⟨_, c, ?_, unitSeconds?_eq_some_iff.mp hUnit,
          hNumeral⟩
      rw [String.toList_ofList]
      exact (List.dropLast_append_getLast? c hLast).symm

/-
  The result is the product, where the text is a number of
  units and the product is in range, and an error otherwise.
-/
def Overflow.ParsesExactly
    (overflow : Overflow)
    (s : String) : Prop :=
  (∀ v,
    overflow.parseDurationStr s = some (.ok v) ↔
      ∃ n unit,
        IsNumberOf s n unit ∧
          n.toNat * unit.toNat ≤ 2 ^ 64 - 1 ∧
          v.toNat = n.toNat * unit.toNat) ∧
  ((∀ v, overflow.parseDurationStr s ≠ some (.ok v)) →
    ∃ err, overflow.parseDurationStr s = some (.error err))

/- Parsing is exact where no product leaves the range. -/
theorem parsesExactly_iff
    (overflow : Overflow)
    (s : String) :
    overflow.ParsesExactly s ↔
      ∀ n unit,
        IsNumberOf s n unit →
          n.toNat * unit.toNat ≤ 2 ^ 64 - 1 := by
  constructor
  · rintro ⟨hOk, hError⟩ n unit hText
    by_contra hLarge
    have hResult :=
      overflow.parseDurationStr_of_isNumberOf hText
    have hNotOk :
        ∀ v, overflow.parseDurationStr s ≠ some (.ok v) := by
      intro v hParse
      rcases (hOk v).mp hParse with
        ⟨n', unit', hText', hLe, _⟩
      rcases hText.unique hText' with ⟨rfl, rfl⟩
      exact hLarge hLe
    rcases hError hNotOk with ⟨err, hErr⟩
    rw [hResult] at hErr
    rcases Option.map_eq_some_iff.mp hErr with ⟨v, _, hEq⟩
    cases hEq
  · intro hRange
    have hResult :
        ∀ n unit,
          IsNumberOf s n unit →
            overflow.parseDurationStr s =
              some (.ok (n * unit)) := by
      intro n unit hText
      have hLt : n.toNat * unit.toNat < 2 ^ 64 := by
        have hLe := hRange n unit hText
        omega
      rw [overflow.parseDurationStr_of_isNumberOf hText,
        Overflow.mul_of_lt hLt]
      rfl
    constructor
    · intro v
      constructor
      · intro hParse
        by_cases hText : ∃ n unit, IsNumberOf s n unit
        · rcases hText with ⟨n, unit, hText⟩
          rw [hResult n unit hText] at hParse
          cases hParse
          have hLe := hRange n unit hText
          exact
            ⟨n, unit, hText, hLe,
              toNat_mul_of_lt (by omega)⟩
        · rcases overflow.parseDurationStr_of_not
              (fun n unit h => hText ⟨n, unit, h⟩) with
            ⟨err, hErr⟩
          rw [hErr] at hParse
          cases hParse
      · rintro ⟨n, unit, hText, hLe, hValue⟩
        rw [hResult n unit hText]
        have hEq : n * unit = v := by
          apply UInt64.toNat_inj.mp
          rw [hValue]
          exact toNat_mul_of_lt (by omega)
        rw [hEq]
    · intro hNotOk
      apply overflow.parseDurationStr_of_not
      intro n unit hText
      exact hNotOk _ (hResult n unit hText)

/- A number of minutes that leaves the range. -/
theorem parse_wraps :
    ¬ Overflow.ParsesExactly .wraps
      "307445734561825861m" := by
  rintro ⟨hExact, _⟩
  have hText : IsNumberOf "307445734561825861m"
      307445734561825861 60 := by
    refine ⟨"307445734561825861", 'm', ?_, ?_, ?_⟩
    · decide
    · decide
    · decide
  have hOk :
      Overflow.parseDurationStr .wraps
          "307445734561825861m" = some (.ok 44) := by
    rw [Overflow.parseDurationStr_of_isNumberOf _ hText]
    rfl
  rcases (hExact 44).mp hOk with
    ⟨n, unit, hText', hLe, _⟩
  rcases hText.unique hText' with ⟨rfl, rfl⟩
  revert hLe
  decide

end Kron

------------------------------------------------------------
-- Schedules
------------------------------------------------------------

namespace Kron

/-
  The timezone database, the cron crate and the RFC 3339
  format: which timezone names parse, and the first time of a
  seven-field cron expression after an instant, read in a
  timezone.
-/
structure Calendar where
  knowsTimezone : String → Bool
  cronAfter :
    String → String → DateTime →
      Except String (Option DateTime)
  parseFromRfc3339 : String → Except String DateTime
  toRfc3339 : DateTime → String

/- When a timer fires. -/
inductive Schedule where
| cron (expr : String)
| every (seconds : UInt64)
| at_ (time : DateTime)
| after (seconds : UInt64) (registeredAt : DateTime)
deriving DecidableEq, Repr

namespace Schedule

/- A one-shot time that has not passed. -/
private def ifLater
    (fireAt after : DateTime) : Option DateTime :=
  if after < fireAt then some fireAt else none

/-
  The next run after an instant. The outer `none` is a
  panic in date arithmetic.
-/
def nextRunAfter
    (cal : Calendar)
    (schedule : Schedule)
    (after : DateTime)
    (tz : String) :
    Option (Except KronError (Option DateTime)) :=
  if cal.knowsTimezone tz then
    match schedule with
    | .cron expr =>
        -- seconds are prepended and the year is appended
        match cal.cronAfter ("0 " ++ expr ++ " *") tz
            after with
        | .error e => some (.error (.invalidCron e))
        | .ok next => some (.ok next)
    | .every seconds =>
        (addSeconds after seconds).map
          fun next => .ok (some next)
    | .at_ time => some (.ok (ifLater time after))
    | .after seconds registeredAt =>
        (addSeconds registeredAt seconds).map
          fun fireAt => .ok (ifLater fireAt after)
  else
    some (.error (.invalidTimezone tz))

/- A fixed time is next only before it has passed. -/
theorem nextRunAfter_at
    {cal : Calendar}
    {time after next : DateTime}
    {tz : String}
    (hAfter :
      nextRunAfter cal (.at_ time) after tz =
        some (.ok (some next))) :
    next = time ∧ after < time := by
  simp only [nextRunAfter] at hAfter
  split at hAfter
  · have hLater := Except.ok.inj (Option.some.inj hAfter)
    unfold ifLater at hLater
    split at hLater
    · rename_i hLt
      exact ⟨(Option.some.inj hLater).symm, hLt⟩
    · cases hLater
  · cases hAfter

/- One-shot schedules fire at most once. -/
def isOneShot : Schedule → Bool
| .at_ _ => true
| .after _ _ => true
| .cron _ => false
| .every _ => false

end Schedule

/- A calendar without timezones and cron expressions. -/
def utcCalendar : Calendar where
  knowsTimezone := fun tz => tz == "UTC"
  cronAfter := fun _ _ _ => .error "no cron"
  parseFromRfc3339 := fun _ => .error "no dates"
  toRfc3339 := fun t => toString t

end Kron
