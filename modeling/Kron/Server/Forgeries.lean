import Kron.Server.Answers

/-
  Redirects that no leadership check has sent.

  A client follows a 409 answer to the address in it. Such
  an answer can also come from the text of an error, which
  shows text of the request and of the crates.

  Key definitions include:
    * `Kron.Response.IsRedirect`
    * `Kron.Forges`
    * `Kron.Shows`
    * `Kron.FailsForging`
    * `Kron.Genuine`

  Key theorems include:
    * `Kron.forges_toText_iff`
    * `Kron.handle_forges_iff`
    * `Kron.handle_leadership`
    * `Kron.redirect_genuine_iff`
-/

------------------------------------------------------------
-- What Handlers Fail With
------------------------------------------------------------

namespace Kron

open Cursor

variable {cal : Calendar}
variable {server : ServerInfo}
variable {io : HandlerIo}
variable {e : HandlerError}

@[simp] theorem ensureLeader_gives_iff
    {check : LeaderCheck}
    {u : Unit} :
    Gives (ensureLeader server check) u ↔
      check.linearizable = true := by
  unfold ensureLeader
  by_cases hLinear : check.linearizable = true
  · simp [hLinear]
  · simp [hLinear]

@[simp] theorem ensureLeader_fails_iff
    {check : LeaderCheck} :
    Fails (ensureLeader server check) e ↔
      check.linearizable = false ∧
        .leadership
          (notLeaderResponse check.currentLeader
            server.nodeId server.httpAddr check.app) = e := by
  unfold ensureLeader
  by_cases hLinear : check.linearizable = true
  · simp [hLinear]
  · simp [hLinear]

@[simp] theorem orFail_gives_iff
    {α : Type}
    {result : Except KronError α}
    {a : α} :
    Gives (orFail result) a ↔ result = .ok a := by
  cases result with
  | error err => simp [orFail]
  | ok b => simp [orFail]

@[simp] theorem orFail_fails_iff
    {α : Type}
    {result : Except KronError α} :
    Fails (orFail result) e ↔
      ∃ err, result = .error err ∧ .failed err = e := by
  cases result with
  | error err => simp [orFail]
  | ok b => simp [orFail]

@[simp] theorem raftCall_gives_iff
    {result : Except String Unit}
    {u : Unit} :
    Gives (raftCall result) u ↔ result = .ok () := by
  cases result with
  | error text => simp [raftCall, Except.mapError]
  | ok b => simp [raftCall, Except.mapError]

@[simp] theorem raftCall_fails_iff
    {result : Except String Unit} :
    Fails (raftCall result) e ↔
      ∃ text, result = .error text ∧
        .failed (.ipcUnavailable text) = e := by
  cases result with
  | error text => simp [raftCall, Except.mapError]
  | ok b => simp [raftCall, Except.mapError]

@[simp] theorem orPanic_gives_iff
    {α : Type}
    {found : Option α}
    {a : α} :
    Gives (orPanic found) a ↔ found = some a := by
  cases found with
  | none => simp [orPanic]
  | some b => simp [orPanic]

@[simp] theorem not_fails_orPanic
    {α : Type}
    {found : Option α} :
    ¬ Fails (orPanic found) e := by
  cases found with
  | none => simp [orPanic]
  | some b => simp [orPanic]

end Kron

------------------------------------------------------------
-- Texts That Forge A Redirect
------------------------------------------------------------

namespace Kron

/- A response that a client follows to another address. -/
def Response.IsRedirect
    (response : Response) : Prop :=
  response.status = 409 ∧
    response.body.errorName = some "not_leader" ∧
    ∃ address, response.body.get "leader_http" = some address

/- From its first brace on, a text reads as a redirect. -/
def Forges
    (format : JsonFormat)
    (text : String) : Prop :=
  ∃ rest value,
    fromBrace text = some rest ∧
      format.parse rest = some value ∧
      value.errorName = some "not_leader" ∧
      ∃ address, value.get "leader_http" = some address

/- What the text of an error takes from elsewhere. -/
def KronError.detail : KronError → String
| .invalidCron message => message
| .invalidTimezone name => name
| .timerNotFound name => name
| .logIo message => message
| .logSerde source => source.message
| .corruptLog path _ source =>
    path ++ ": " ++ source.message
| .alreadyStarted => ""
| .alreadyStopped => ""
| .shutdownTimeout _ => ""
| .dataDirLocked path => path
| .invalidSnapshot message => message
| .ipcUnavailable message => message

variable {format : JsonFormat}

theorem fromBrace_append
    {a b : String}
    (hBrace : '\x7b' ∉ a.toList) :
    fromBrace (a ++ b) = fromBrace b := by
  have hAll :
      ∀ c ∈ a.toList, (c != '\x7b') = true := by
    intro c hMem
    have hNe : c ≠ '\x7b' := by
      rintro rfl
      exact hBrace hMem
    simpa using hNe
  unfold fromBrace
  rw [String.toList_append,
    List.dropWhile_append_of_pos hAll]

/- Text without a brace before a text changes nothing. -/
theorem forges_append_iff
    {a b : String}
    (hBrace : '\x7b' ∉ a.toList) :
    Forges format (a ++ b) ↔ Forges format b := by
  unfold Forges
  rw [fromBrace_append hBrace]

theorem not_forges
    {text : String}
    (hBrace : '\x7b' ∉ text.toList) :
    ¬ Forges format text := by
  rintro ⟨rest, value, hRest, _⟩
  have hNone : fromBrace text = none := by
    have hAppend :
        fromBrace (text ++ "") = fromBrace "" :=
      fromBrace_append hBrace
    rw [String.append_empty] at hAppend
    exact hAppend
  rw [hNone] at hRest
  cases hRest

@[simp] theorem brace_notMem_toDigits
    (n : Nat) :
    '\x7b' ∉ Nat.toDigits 10 n := by
  intro hMem
  have hDigit :=
    Nat.isDigit_of_mem_toDigits (by decide) (by decide) hMem
  revert hDigit
  decide

/- What forges in an error comes from elsewhere. -/
theorem forges_toText_iff
    {err : KronError} :
    Forges format err.toText ↔ Forges format err.detail := by
  cases err with
  | invalidCron message =>
      exact forges_append_iff (by decide)
  | invalidTimezone name =>
      exact forges_append_iff (by decide)
  | timerNotFound name =>
      exact forges_append_iff (by decide)
  | logIo message => exact forges_append_iff (by decide)
  | logSerde source => exact forges_append_iff (by decide)
  | corruptLog path line source =>
      have hBrace :
          '\x7b' ∉
            ("corrupt log line " ++ Nat.repr line ++
              " in ").toList := by
        simp
      have hText :
          "corrupt log line " ++ Nat.repr line ++ " in " ++
              path ++ ": " ++ source.message =
            ("corrupt log line " ++ Nat.repr line ++
              " in ") ++
              (path ++ ": " ++ source.message) := by
        simp only [String.append_assoc]
      change
        Forges format
            ("corrupt log line " ++ Nat.repr line ++ " in " ++
              path ++ ": " ++ source.message) ↔
          Forges format (path ++ ": " ++ source.message)
      rw [hText]
      exact forges_append_iff hBrace
  | alreadyStarted =>
      have hBrace : '\x7b' ∉ "engine already started".toList := by
        decide
      exact iff_of_false (not_forges hBrace)
        (not_forges List.not_mem_nil)
  | alreadyStopped =>
      have hBrace : '\x7b' ∉ "engine has already been shut down".toList := by
        decide
      exact iff_of_false (not_forges hBrace)
        (not_forges List.not_mem_nil)
  | shutdownTimeout timeoutMs =>
      have hBrace :
          '\x7b' ∉
            ("shutdown timed out after " ++
              Nat.repr timeoutMs ++ "ms").toList := by
        simp
      exact iff_of_false (not_forges hBrace)
        (not_forges List.not_mem_nil)
  | dataDirLocked path =>
      exact forges_append_iff (by decide)
  | invalidSnapshot message =>
      exact forges_append_iff (by decide)
  | ipcUnavailable message =>
      exact forges_append_iff (by decide)

/- A redirect is made of what a text holds, not of it. -/
theorem errorResponse_isRedirect_iff
    {text : String} :
    (errorResponse format text).IsRedirect ↔
      Forges format text := by
  unfold Response.IsRedirect Forges errorResponse errorValue
  cases hRead : (fromBrace text).bind format.parse with
  | none =>
      constructor
      · rintro ⟨_, _, address, hAddress⟩
        cases hAddress
      · rintro ⟨rest, value, hRest, hParse, _⟩
        rw [hRest] at hRead
        rw [Option.bind_some, hParse] at hRead
        cases hRead
  | some value =>
      rcases Option.bind_eq_some_iff.mp hRead with
        ⟨rest, hRest, hParse⟩
      constructor
      · rintro ⟨_, hName, hAddress⟩
        exact ⟨rest, value, hRest, hParse, hName, hAddress⟩
      · rintro ⟨rest', value', hRest', hParse', hName, hAddress⟩
        rw [hRest] at hRest'
        cases hRest'
        rw [hParse] at hParse'
        cases hParse'
        exact ⟨if_pos hName, hName, hAddress⟩

end Kron

------------------------------------------------------------
-- Texts That Errors Take From Elsewhere
------------------------------------------------------------

namespace Kron

section Elsewhere

variable (cal : Calendar)
variable (server : ServerInfo)
variable (io : HandlerIo)

/- What the error of a schedule that is not one shows. -/
inductive Misstated
    (request : CreateTimerRequest) : String → Prop
| every
    {text : String}
    (hCron : request.cron = none)
    (hEvery : request.every = some text)
    (hAfter : request.after = none)
    (hAt : request.at_ = none)
    (hInvalid : ∀ n, parseDurationStr text ≠ .ok n) :
    Misstated request (Text.trim text)
| after
    {text : String}
    (hCron : request.cron = none)
    (hEvery : request.every = none)
    (hAfter : request.after = some text)
    (hAt : request.at_ = none)
    (hInvalid : ∀ n, parseDurationStr text ≠ .ok n) :
    Misstated request (Text.trim text)
| at_
    {text error : String}
    (hCron : request.cron = none)
    (hEvery : request.every = none)
    (hAfter : request.after = none)
    (hAt : request.at_ = some text)
    (hInvalid : cal.parseFromRfc3339 text = .error error) :
    Misstated request error

/- What the error of a timer that is not created shows. -/
inductive Refused
    (request : CreateTimerRequest) : String → Prop
| schedule
    {text : String}
    (hMisstated : Misstated cal request text) :
    Refused request text
| timezone
    {schedule : Schedule}
    (hSchedule :
      parseRequestSchedule cal request io.now =
        .ok schedule)
    (hUnknown :
      cal.knowsTimezone (request.timezone.getD "UTC") =
        false) :
    Refused request (request.timezone.getD "UTC")
| cron
    {expr error : String}
    (hSchedule :
      parseRequestSchedule cal request io.now =
        .ok (.cron expr))
    (hKnown :
      cal.knowsTimezone (request.timezone.getD "UTC") =
        true)
    (hInvalid :
      cal.cronAfter ("0 " ++ expr ++ " *")
          (request.timezone.getD "UTC") io.createdAt =
        .error error) :
    Refused request error

/- A round that claims nothing and does not fail. -/
def PollRound.ClaimsNothing
    (round : PollRound)
    (auth : AuthContext)
    (request : WorkerPollRequest) : Prop :=
  ∀ pick,
    tryClaim cal round.app request auth.tenantId round.now
        round.runId = some pick →
      (∃ command,
        claimCommand pick round.claimedAt
          server.workerLeaseSeconds = some command) ∧
        round.write = .ok () ∧
        stillOwner round.after pick = false

/- A round whose claim cannot be written. -/
def PollRound.WriteFails
    (round : PollRound)
    (auth : AuthContext)
    (request : WorkerPollRequest)
    (text : String) : Prop :=
  ∃ pick command,
    tryClaim cal round.app request auth.tenantId round.now
        round.runId = some pick ∧
      claimCommand pick round.claimedAt
          server.workerLeaseSeconds = some command ∧
      round.write = .error text

/- The first round that is not without effect fails. -/
inductive RoundsFail
    (auth : AuthContext)
    (request : WorkerPollRequest)
    (text : String) : List PollRound → Prop
| here
    {round : PollRound}
    {rounds : List PollRound}
    (hWrite :
      round.WriteFails cal server auth request text) :
    RoundsFail auth request text (round :: rounds)
| later
    {round : PollRound}
    {rounds : List PollRound}
    (hNothing : round.ClaimsNothing cal server auth request)
    (hLater : RoundsFail auth request text rounds) :
    RoundsFail auth request text (round :: rounds)

/-
  What the error of a request shows that passes its
  leadership checks: text of the request, or of the crates.
-/
def Shows
    (auth : AuthContext) : Request → String → Prop
| .createTimer request, text =>
    io.firstCheck.linearizable = true ∧
      ((∃ tenant,
          requestTenant request.tenantId auth.tenantId =
            .ok tenant) ∧
          Refused cal io request text ∨
        (∃ command,
          createTimer cal request auth.tenantId io.now
            io.createdAt = some (.ok command)) ∧
          io.raft 0 = .error text)
| .registerWorker request, text =>
    io.firstCheck.linearizable = true ∧
      (∃ command,
        registerWorker request io.now
          server.workerLeaseSeconds = some command) ∧
      io.raft 0 = .error text
| .heartbeatWorker workerId, text =>
    io.firstCheck.linearizable = true ∧
      (∃ command,
        heartbeatWorker workerId io.now
          server.workerLeaseSeconds = some command) ∧
      io.raft 0 = .error text
| .pollWorker request, text =>
    io.firstCheck.linearizable = true ∧
      io.secondCheck.linearizable = true ∧
      (∃ command,
        heartbeatWorker request.workerId io.now
          server.workerLeaseSeconds = some command) ∧
      (io.raft 0 = .error text ∨
        io.raft 0 = .ok () ∧
          RoundsFail cal server auth request text io.rounds)
| .succeedRun runId request, text =>
    io.firstCheck.linearizable = true ∧
      validateActiveRun io.app runId request.workerId
        request.fencingToken auth.tenantId = .ok () ∧
      io.raft 0 = .error text
| .failRun runId request, text =>
    io.firstCheck.linearizable = true ∧
      validateActiveRun io.app runId request.workerId
        request.fencingToken auth.tenantId = .ok () ∧
      io.raft 0 = .error text
| .joinCluster _, text =>
    io.firstCheck.linearizable = true ∧
      ∃ i < 4,
        (∀ j < i, io.raft j = .ok ()) ∧
          io.raft i = .error text
| .leaveCluster _, text =>
    io.firstCheck.linearizable = true ∧
      io.raft 0 = .error text
| .raftAppendEntries, text => io.raft 0 = .error text
| .raftVote, text => io.raft 0 = .error text
| .raftInstallSnapshot, text => io.raft 0 = .error text
| .listTimers, _ => False
| .statusTimer _, _ => False
| .historyTimer _, _ => False
| .clusterStatus, _ => False
| .shutdownRuntime, _ => False

end Elsewhere

end Kron

------------------------------------------------------------
-- Handlers That Forge
------------------------------------------------------------

namespace Kron

open Cursor

/- The handler passes its checks, and its error forges. -/
def FailsForging
    (format : JsonFormat)
    {α : Type}
    (handler : Checked HandlerError α) : Prop :=
  ∃ err, Fails handler (.failed err) ∧
    Forges format err.detail

variable {format : JsonFormat}

section Rules

variable {α β : Type}
variable {handler : Checked HandlerError α}

@[simp] theorem not_failsForging_pure
    {a : α} :
    ¬ FailsForging format
      (pure a : Checked HandlerError α) := by
  simp [FailsForging]

@[simp] theorem failsForging_throw_iff
    {err : KronError} :
    FailsForging format
        (throw (.failed err) : Checked HandlerError α) ↔
      Forges format err.detail := by
  simp [FailsForging]

@[simp] theorem failsForging_map_iff
    {g : α → β} :
    FailsForging format (g <$> handler) ↔
      FailsForging format handler := by
  simp [FailsForging]

@[simp] theorem failsForging_bind_iff
    {f : α → Checked HandlerError β} :
    FailsForging format (handler >>= f) ↔
      FailsForging format handler ∨
        ∃ a, Gives handler a ∧
          FailsForging format (f a) := by
  unfold FailsForging
  constructor
  · rintro ⟨err, hFails, hForges⟩
    rcases fails_bind_iff.mp hFails with
      hFirst | ⟨a, hGives, hRest⟩
    · exact Or.inl ⟨err, hFirst, hForges⟩
    · exact Or.inr ⟨a, hGives, err, hRest, hForges⟩
  · rintro (⟨err, hFirst, hForges⟩ |
      ⟨a, hGives, err, hRest, hForges⟩)
    · exact
        ⟨err, fails_bind_iff.mpr (Or.inl hFirst), hForges⟩
    · exact
        ⟨err, fails_bind_iff.mpr (Or.inr ⟨a, hGives, hRest⟩),
          hForges⟩

@[simp] theorem not_failsForging_ensureLeader
    {server : ServerInfo}
    {check : LeaderCheck} :
    ¬ FailsForging format (ensureLeader server check) := by
  simp [FailsForging]

@[simp] theorem not_failsForging_orPanic
    {found : Option α} :
    ¬ FailsForging format (orPanic found) := by
  simp [FailsForging]

@[simp] theorem failsForging_orFail_iff
    {result : Except KronError α} :
    FailsForging format (orFail result) ↔
      ∃ err, result = .error err ∧
        Forges format err.detail := by
  simp [FailsForging]

/- A call of Raft forges with the text of its error. -/
@[simp] theorem failsForging_raftCall_iff
    {result : Except String Unit} :
    FailsForging format (raftCall result) ↔
      ∃ text, result = .error text ∧ Forges format text := by
  simp only [FailsForging, raftCall_fails_iff,
    HandlerError.failed.injEq]
  constructor
  · rintro ⟨err, ⟨text, hResult, rfl⟩, hForges⟩
    exact ⟨text, hResult, hForges⟩
  · rintro ⟨text, hResult, hForges⟩
    exact ⟨_, ⟨text, hResult, rfl⟩, hForges⟩

end Rules

end Kron

------------------------------------------------------------
-- Timers That Are Not Created
------------------------------------------------------------

namespace Kron

variable {format : JsonFormat}
variable {cal : Calendar}
variable {io : HandlerIo}
variable {request : CreateTimerRequest}

theorem requestTenant_not_forges
    {requested tokenTenant : Option String}
    {err : KronError}
    (hError :
      requestTenant requested tokenTenant = .error err) :
    ¬ Forges format err.detail := by
  unfold requestTenant at hError
  split at hError
  · cases hError
  · split at hError
    · cases hError
      exact not_forges (by decide)
    · cases hError

/- A duration forges with its trimmed text. -/
theorem parseDurationStr_forges_iff
    {text : String}
    {err : KronError}
    (hError : parseDurationStr text = .error err) :
    Forges format err.detail ↔
      Forges format (Text.trim text) := by
  unfold parseDurationStr at hError
  dsimp only at hError
  split at hError
  · cases hError
    exact forges_append_iff (by decide)
  · split at hError
    · cases hError
      exact forges_append_iff (by decide)
    · cases hError

/- A schedule of a duration fails where the duration does. -/
theorem durationSchedule_forges_iff
    {text : String}
    {f : UInt64 → Schedule} :
    (∃ err,
        (parseDurationStr text).map f = .error err ∧
          Forges format err.detail) ↔
      (∀ n, parseDurationStr text ≠ .ok n) ∧
        Forges format (Text.trim text) := by
  cases hParse : parseDurationStr text with
  | error e =>
      have hForges :
          Forges format e.detail ↔
            Forges format (Text.trim text) :=
        parseDurationStr_forges_iff hParse
      constructor
      · rintro ⟨err, hError, hDetail⟩
        cases hError
        refine ⟨?_, hForges.mp hDetail⟩
        intro n hOk
        cases hOk
      · rintro ⟨_, hText⟩
        exact ⟨e, rfl, hForges.mpr hText⟩
  | ok seconds =>
      constructor
      · rintro ⟨err, hError, _⟩
        cases hError
      · rintro ⟨hInvalid, _⟩
        exact absurd rfl (hInvalid seconds)

private theorem misstated_of_error
    {now : DateTime}
    {err : KronError}
    (hError :
      parseRequestSchedule cal request now = .error err)
    (hForges : Forges format err.detail) :
    ∃ text, Misstated cal request text ∧
      Forges format text := by
  unfold parseRequestSchedule at hError
  split at hError
  · cases hError
  · rename_i every hCron hEvery hAfter hAt
    rcases durationSchedule_forges_iff.mp
        ⟨err, hError, hForges⟩ with
      ⟨hInvalid, hText⟩
    exact ⟨_, .every hCron hEvery hAfter hAt hInvalid, hText⟩
  · rename_i after hCron hEvery hAfter hAt
    rcases durationSchedule_forges_iff.mp
        ⟨err, hError, hForges⟩ with
      ⟨hInvalid, hText⟩
    exact ⟨_, .after hCron hEvery hAfter hAt hInvalid, hText⟩
  · rename_i text hCron hEvery hAfter hAt
    cases hParse : cal.parseFromRfc3339 text with
    | error e =>
        rw [hParse] at hError
        cases hError
        exact
          ⟨_, .at_ hCron hEvery hAfter hAt hParse,
            (forges_append_iff (by decide)).mp hForges⟩
    | ok time =>
        rw [hParse] at hError
        cases hError
  · cases hError
    exact absurd hForges (not_forges (by decide))

private theorem error_of_misstated
    {now : DateTime}
    {text : String}
    (hMisstated : Misstated cal request text)
    (hForges : Forges format text) :
    ∃ err,
      parseRequestSchedule cal request now = .error err ∧
        Forges format err.detail := by
  unfold parseRequestSchedule
  cases hMisstated with
  | every hCron hEvery hAfter hAt hInvalid =>
      rw [hCron, hEvery, hAfter, hAt]
      exact
        durationSchedule_forges_iff.mpr ⟨hInvalid, hForges⟩
  | after hCron hEvery hAfter hAt hInvalid =>
      rw [hCron, hEvery, hAfter, hAt]
      exact
        durationSchedule_forges_iff.mpr ⟨hInvalid, hForges⟩
  | at_ hCron hEvery hAfter hAt hInvalid =>
      rw [hCron, hEvery, hAfter, hAt]
      dsimp only
      rw [hInvalid]
      exact
        ⟨_, rfl, (forges_append_iff (by decide)).mpr hForges⟩

private theorem refused_of_error
    {schedule : Schedule}
    {err : KronError}
    (hSchedule :
      parseRequestSchedule cal request io.now =
        .ok schedule)
    (hError :
      schedule.nextRunAfter cal io.createdAt
          (request.timezone.getD "UTC") =
        some (.error err)) :
    Refused cal io request err.detail := by
  unfold Schedule.nextRunAfter at hError
  split at hError
  · rename_i hKnown
    split at hError
    · split at hError
      · rename_i hInvalid
        cases hError
        exact .cron hSchedule hKnown hInvalid
      · cases hError
    · rcases Option.map_eq_some_iff.mp hError with
        ⟨_, _, hEq⟩
      cases hEq
    · cases hError
    · rcases Option.map_eq_some_iff.mp hError with
        ⟨_, _, hEq⟩
      cases hEq
  · rename_i hUnknown
    cases hError
    exact .timezone hSchedule (by simpa using hUnknown)

/- A refused request forges with what its error shows. -/
theorem createTimer_forges_iff
    {tenantId : Option String} :
    (∃ err,
        createTimer cal request tenantId io.now
            io.createdAt = some (.error err) ∧
          Forges format err.detail) ↔
      (∃ tenant,
          requestTenant request.tenantId tenantId =
            .ok tenant) ∧
        ∃ text, Refused cal io request text ∧
          Forges format text := by
  unfold createTimer
  cases hTenant : requestTenant request.tenantId tenantId with
  | error e =>
      constructor
      · rintro ⟨err, hError, hForges⟩
        cases hError
        exact
          absurd hForges (requestTenant_not_forges hTenant)
      · rintro ⟨⟨tenant, hOk⟩, _⟩
        cases hOk
  | ok tenant =>
      dsimp only
      cases hSchedule :
          parseRequestSchedule cal request io.now with
      | error e =>
          dsimp only
          constructor
          · rintro ⟨err, hError, hForges⟩
            cases hError
            rcases misstated_of_error hSchedule hForges with
              ⟨text, hMisstated, hText⟩
            exact
              ⟨⟨tenant, rfl⟩, text, .schedule hMisstated,
                hText⟩
          · rintro ⟨_, text, hRefused, hForges⟩
            cases hRefused with
            | schedule hMisstated =>
                rcases
                    error_of_misstated hMisstated hForges with
                  ⟨err, hError, hDetail⟩
                rw [hSchedule] at hError
                cases hError
                exact ⟨e, rfl, hDetail⟩
            | timezone hOk _ =>
                rw [hSchedule] at hOk
                cases hOk
            | cron hOk _ _ =>
                rw [hSchedule] at hOk
                cases hOk
      | ok schedule =>
          dsimp only
          constructor
          · rintro ⟨err, hError, hForges⟩
            rcases Option.map_eq_some_iff.mp hError with
              ⟨result, hNext, hEq⟩
            cases result with
            | error e =>
                cases hEq
                exact
                  ⟨⟨tenant, rfl⟩, _,
                    refused_of_error hSchedule hNext,
                    hForges⟩
            | ok next => cases hEq
          · rintro ⟨_, text, hRefused, hForges⟩
            cases hRefused with
            | schedule hMisstated =>
                rcases
                    error_of_misstated hMisstated hForges with
                  ⟨err, hError, hDetail⟩
                rw [hSchedule] at hError
                cases hError
            | timezone hOk hUnknown =>
                rw [hSchedule] at hOk
                cases hOk
                refine ⟨.invalidTimezone _, ?_, hForges⟩
                unfold Schedule.nextRunAfter
                rw [hUnknown]
                rfl
            | cron hOk hKnown hInvalid =>
                rw [hSchedule] at hOk
                cases hOk
                refine ⟨.invalidCron _, ?_, hForges⟩
                unfold Schedule.nextRunAfter
                rw [if_pos hKnown]
                dsimp only
                rw [hInvalid]
                rfl

end Kron

------------------------------------------------------------
-- Requests That Forge
------------------------------------------------------------

namespace Kron

open Cursor

variable {format : JsonFormat}
variable {cal : Calendar}
variable {server : ServerInfo}
variable {io : HandlerIo}
variable {auth : AuthContext}

theorem createTimerHandler_forges_iff
    {request : CreateTimerRequest} :
    FailsForging format
        (createTimerHandler cal server io auth request) ↔
      ∃ text,
        Shows cal server io auth (.createTimer request)
            text ∧
          Forges format text := by
  have hConstant :
      ¬ Forges format
        (KronError.ipcUnavailable
          "timer was not applied").detail :=
    not_forges (by decide)
  have hHandler :
      FailsForging format
          (createTimerHandler cal server io auth request) ↔
        io.firstCheck.linearizable = true ∧
          ((∃ err,
              createTimer cal request auth.tenantId io.now
                  io.createdAt = some (.error err) ∧
                Forges format err.detail) ∨
            (∃ command,
              createTimer cal request auth.tenantId io.now
                io.createdAt = some (.ok command)) ∧
              ∃ text, io.raft 0 = .error text ∧
                Forges format text) := by
    unfold createTimerHandler
    rcases
        createTimer cal request auth.tenantId io.now
          io.createdAt with
      _ | err | command
    · simp
    · simp
    · by_cases hApplied : io.applied = true
      · simp [hApplied]
      · simp [hApplied, hConstant]
  rw [hHandler, createTimer_forges_iff]
  simp only [Shows]
  constructor
  · rintro ⟨hLinear, ⟨hTenant, text, hRefused, hForges⟩ |
      ⟨hCreated, text, hRaft, hForges⟩⟩
    · exact
        ⟨text, ⟨hLinear, Or.inl ⟨hTenant, hRefused⟩⟩, hForges⟩
    · exact
        ⟨text, ⟨hLinear, Or.inr ⟨hCreated, hRaft⟩⟩, hForges⟩
  · rintro ⟨text, ⟨hLinear, ⟨hTenant, hRefused⟩ |
      ⟨hCreated, hRaft⟩⟩, hForges⟩
    · exact
        ⟨hLinear, Or.inl ⟨hTenant, text, hRefused, hForges⟩⟩
    · exact
        ⟨hLinear, Or.inr ⟨hCreated, text, hRaft, hForges⟩⟩

theorem registerWorkerHandler_forges_iff
    {request : WorkerRegisterRequest} :
    FailsForging format
        (registerWorkerHandler server io request) ↔
      ∃ text,
        Shows cal server io auth (.registerWorker request)
            text ∧
          Forges format text := by
  unfold registerWorkerHandler
  simp [Shows, and_assoc]

theorem heartbeatWorkerHandler_forges_iff
    {check : LeaderCheck}
    {workerId : String} :
    FailsForging format
        (heartbeatWorkerHandler server io check workerId) ↔
      check.linearizable = true ∧
        (∃ command,
          heartbeatWorker workerId io.now
            server.workerLeaseSeconds = some command) ∧
        ∃ text, io.raft 0 = .error text ∧
          Forges format text := by
  unfold heartbeatWorkerHandler
  simp

theorem validateActiveRun_not_forges
    {app : RaftAppState}
    {runId : RunId}
    {workerId : String}
    {fencingToken : UInt64}
    {tenantId : Option String}
    {err : KronError}
    (hError :
      validateActiveRun app runId workerId fencingToken
        tenantId = .error err) :
    ¬ Forges format err.detail := by
  unfold validateActiveRun at hError
  split at hError
  · cases hError
    exact not_forges (by decide)
  · split_ifs at hError
    all_goals
      cases hError
      exact not_forges (by decide)

theorem endRunHandler_forges_iff
    {runId : RunId}
    {workerId : String}
    {fencingToken : UInt64} :
    FailsForging format
        (endRunHandler server io auth runId workerId
          fencingToken) ↔
      io.firstCheck.linearizable = true ∧
        validateActiveRun io.app runId workerId fencingToken
            auth.tenantId = .ok () ∧
        ∃ text, io.raft 0 = .error text ∧
          Forges format text := by
  unfold endRunHandler
  cases hValid :
      validateActiveRun io.app runId workerId fencingToken
        auth.tenantId with
  | error err => simp [validateActiveRun_not_forges hValid]
  | ok u => simp

theorem joinHandler_forges_iff :
    FailsForging format (joinHandler server io) ↔
      io.firstCheck.linearizable = true ∧
        ∃ text,
          (∃ i < 4,
            (∀ j < i, io.raft j = .ok ()) ∧
              io.raft i = .error text) ∧
            Forges format text := by
  have hCalls :
      FailsForging format (joinHandler server io) ↔
        io.firstCheck.linearizable = true ∧
          ((∃ text, io.raft 0 = .error text ∧
              Forges format text) ∨
            io.raft 0 = .ok () ∧
          ((∃ text, io.raft 1 = .error text ∧
              Forges format text) ∨
            io.raft 1 = .ok () ∧
          ((∃ text, io.raft 2 = .error text ∧
              Forges format text) ∨
            io.raft 2 = .ok () ∧
          ∃ text, io.raft 3 = .error text ∧
            Forges format text))) := by
    unfold joinHandler
    simp
  rw [hCalls]
  constructor
  · rintro ⟨hLinear,
      ⟨text, h₀, hForges⟩ | ⟨h₀,
      ⟨text, h₁, hForges⟩ | ⟨h₁,
      ⟨text, h₂, hForges⟩ | ⟨h₂,
      text, h₃, hForges⟩⟩⟩⟩
    · exact
        ⟨hLinear, text,
          ⟨0, by decide, by simp, h₀⟩, hForges⟩
    · exact
        ⟨hLinear, text,
          ⟨1, by decide, by simp [h₀], h₁⟩, hForges⟩
    · refine
        ⟨hLinear, text, ⟨2, by decide, ?_, h₂⟩, hForges⟩
      intro j hLt
      interval_cases j
      · exact h₀
      · exact h₁
    · refine
        ⟨hLinear, text, ⟨3, by decide, ?_, h₃⟩, hForges⟩
      intro j hLt
      interval_cases j
      · exact h₀
      · exact h₁
      · exact h₂
  · rintro ⟨hLinear, text, ⟨i, hLt, hBefore, hError⟩, hForges⟩
    refine ⟨hLinear, ?_⟩
    interval_cases i
    · exact Or.inl ⟨text, hError, hForges⟩
    · exact
        Or.inr
          ⟨hBefore 0 (by decide),
            Or.inl ⟨text, hError, hForges⟩⟩
    · exact
        Or.inr
          ⟨hBefore 0 (by decide),
            Or.inr
              ⟨hBefore 1 (by decide),
                Or.inl ⟨text, hError, hForges⟩⟩⟩
    · exact
        Or.inr
          ⟨hBefore 0 (by decide),
            Or.inr
              ⟨hBefore 1 (by decide),
                Or.inr
                  ⟨hBefore 2 (by decide), text, hError,
                    hForges⟩⟩⟩

theorem pollRound_gives_iff
    {round : PollRound}
    {request : WorkerPollRequest} :
    Gives (pollRound cal server auth request round) none ↔
      round.ClaimsNothing cal server auth request := by
  unfold pollRound PollRound.ClaimsNothing
  cases hClaim :
      tryClaim cal round.app request auth.tenantId round.now
        round.runId with
  | none => simp
  | some pick =>
      by_cases hOwner : stillOwner round.after pick = true
      · simp [hOwner]
      · simp [hOwner]

theorem pollRound_forges_iff
    {round : PollRound}
    {request : WorkerPollRequest} :
    FailsForging format
        (pollRound cal server auth request round) ↔
      ∃ text,
        round.WriteFails cal server auth request text ∧
          Forges format text := by
  unfold pollRound PollRound.WriteFails
  cases hClaim :
      tryClaim cal round.app request auth.tenantId round.now
        round.runId with
  | none => simp
  | some pick =>
      by_cases hOwner : stillOwner round.after pick = true
      · simp [hOwner, and_assoc]
      · simp [hOwner, and_assoc]

theorem pollRounds_forges_iff
    {request : WorkerPollRequest}
    {rounds : List PollRound} :
    FailsForging format
        (pollRounds cal server io auth request rounds) ↔
      ∃ text,
        RoundsFail cal server auth request text rounds ∧
          Forges format text := by
  induction rounds with
  | nil =>
      constructor
      · intro hFails
        exact absurd hFails not_failsForging_pure
      · rintro ⟨text, hFails, _⟩
        cases hFails
  | cons round rounds ih =>
      unfold pollRounds
      rw [failsForging_bind_iff, pollRound_forges_iff]
      constructor
      · rintro (⟨text, hWrite, hForges⟩ |
          ⟨found, hGives, hFails⟩)
        · exact ⟨text, .here hWrite, hForges⟩
        · cases found with
          | some run =>
              exact absurd hFails not_failsForging_pure
          | none =>
              rcases ih.mp hFails with
                ⟨text, hLater, hForges⟩
              exact
                ⟨text,
                  .later (pollRound_gives_iff.mp hGives)
                    hLater,
                  hForges⟩
      · rintro ⟨text, hFails, hForges⟩
        cases hFails with
        | here hWrite =>
            exact Or.inl ⟨text, hWrite, hForges⟩
        | later hNothing hLater =>
            exact
              Or.inr
                ⟨none, pollRound_gives_iff.mpr hNothing,
                  ih.mpr ⟨text, hLater, hForges⟩⟩

/- The heartbeat of a poll, where it passes its check. -/
theorem heartbeatWorkerHandler_gives_iff
    {check : LeaderCheck}
    {workerId : String} :
    (∃ value,
        Gives (heartbeatWorkerHandler server io check workerId)
          value) ↔
      check.linearizable = true ∧
        (∃ command,
          heartbeatWorker workerId io.now
            server.workerLeaseSeconds = some command) ∧
        io.raft 0 = .ok () := by
  unfold heartbeatWorkerHandler
  simp

theorem pollWorkerHandler_forges_iff
    {request : WorkerPollRequest} :
    FailsForging format
        (pollWorkerHandler cal server io auth request) ↔
      ∃ text,
        Shows cal server io auth (.pollWorker request)
            text ∧
          Forges format text := by
  have hHandler :
      FailsForging format
          (pollWorkerHandler cal server io auth request) ↔
        io.firstCheck.linearizable = true ∧
          (FailsForging format
              (heartbeatWorkerHandler server io io.secondCheck
                request.workerId) ∨
            (∃ value,
              Gives
                (heartbeatWorkerHandler server io
                  io.secondCheck request.workerId) value) ∧
              FailsForging format
                (pollRounds cal server io auth request
                  io.rounds)) := by
    unfold pollWorkerHandler
    simp
  rw [hHandler, heartbeatWorkerHandler_forges_iff,
    heartbeatWorkerHandler_gives_iff, pollRounds_forges_iff]
  simp only [Shows]
  constructor
  · rintro ⟨hLinear,
      ⟨hSecond, hCommand, text, hRaft, hForges⟩ |
      ⟨⟨hSecond, hCommand, hRaft⟩, text, hFail, hForges⟩⟩
    · exact
        ⟨text, ⟨hLinear, hSecond, hCommand, Or.inl hRaft⟩,
          hForges⟩
    · exact
        ⟨text,
          ⟨hLinear, hSecond, hCommand,
            Or.inr ⟨hRaft, hFail⟩⟩,
          hForges⟩
  · rintro ⟨text,
      ⟨hLinear, hSecond, hCommand, hRaft | ⟨hRaft, hFail⟩⟩,
      hForges⟩
    · exact
        ⟨hLinear,
          Or.inl ⟨hSecond, hCommand, text, hRaft, hForges⟩⟩
    · exact
        ⟨hLinear,
          Or.inr
            ⟨⟨hSecond, hCommand, hRaft⟩, text, hFail,
              hForges⟩⟩

/- A request forges with a text that its error shows. -/
theorem handle_forges_iff
    {request : Request} :
    FailsForging format
        (handle cal server io auth request) ↔
      ∃ text,
        Shows cal server io auth request text ∧
          Forges format text := by
  cases request with
  | createTimer request => exact createTimerHandler_forges_iff
  | registerWorker request =>
      exact registerWorkerHandler_forges_iff
  | heartbeatWorker workerId =>
      simp [handle, Shows, heartbeatWorkerHandler_forges_iff,
        and_assoc]
  | pollWorker request => exact pollWorkerHandler_forges_iff
  | succeedRun runId request =>
      simp [handle, Shows, endRunHandler_forges_iff,
        and_assoc]
  | failRun runId request =>
      simp [handle, Shows, endRunHandler_forges_iff,
        and_assoc]
  | joinCluster request =>
      simp only [handle, Shows, joinHandler_forges_iff,
        and_assoc, exists_and_left]
  | leaveCluster request =>
      simp [handle, leaveHandler, Shows, and_assoc]
  | raftAppendEntries => simp [handle, raftHandler, Shows]
  | raftVote => simp [handle, raftHandler, Shows]
  | raftInstallSnapshot => simp [handle, raftHandler, Shows]
  | listTimers => simp [handle, Shows]
  | statusTimer name => simp [handle, Shows]
  | historyTimer name => simp [handle, Shows]
  | clusterStatus => simp [handle, Shows]
  | shutdownRuntime => simp [handle, Shows]

end Kron

------------------------------------------------------------
-- Genuine Redirects
------------------------------------------------------------

namespace Kron

open Cursor

section Genuine

variable (format : JsonFormat)
variable (cal : Calendar)
variable (server : ServerInfo)
variable (io : HandlerIo)
variable (auth : Except String AuthContext)
variable (request : Request)

/- The answer to a request that fails a leadership check. -/
def Genuine
    (response : Response) : Prop :=
  ∃ ctx check,
    auth = .ok ctx ∧
      (check = io.firstCheck ∨ check = io.secondCheck) ∧
      check.linearizable = false ∧
      Fails (handle cal server io ctx request)
        (.leadership
          (notLeaderResponse check.currentLeader
            server.nodeId server.httpAddr check.app)) ∧
      response =
        errorResponse format
          (KronError.ipcUnavailable
            (format.print
              (notLeaderResponse check.currentLeader
                server.nodeId server.httpAddr
                check.app).toJson)).toText

end Genuine

variable {format : JsonFormat}
variable {cal : Calendar}
variable {server : ServerInfo}
variable {io : HandlerIo}
variable {auth : Except String AuthContext}
variable {ctx : AuthContext}
variable {audit : AuditWriter}
variable {request : Request}
variable {response : Response}

theorem pollRounds_not_leadership
    {pollRequest : WorkerPollRequest}
    {rounds : List PollRound}
    {found : NotLeaderResponse} :
    ¬ Fails
      (pollRounds cal server io ctx pollRequest rounds)
      (.leadership found) := by
  induction rounds with
  | nil => exact not_fails_pure
  | cons round rounds ih =>
      unfold pollRounds pollRound
      intro hFails
      rcases fails_bind_iff.mp hFails with
        hRound | ⟨claimed, _, hRest⟩
      · cases hClaim :
            tryClaim cal round.app pollRequest ctx.tenantId
              round.now round.runId with
        | none =>
            rw [hClaim] at hRound
            exact not_fails_pure hRound
        | some pick =>
            rw [hClaim] at hRound
            by_cases hOwner :
                stillOwner round.after pick = true
            · simp [hOwner] at hRound
            · simp [hOwner] at hRound
      · cases claimed with
        | some run => exact not_fails_pure hRest
        | none => exact ih hRest

/- The handlers that begin with a leadership check. -/
theorem fails_after_check
    {α : Type}
    {check : LeaderCheck}
    {rest : Unit → Checked HandlerError α}
    {found : NotLeaderResponse}
    (hFails :
      Fails (ensureLeader server check >>= rest)
        (.leadership found))
    (hRest : ∀ u, ¬ Fails (rest u) (.leadership found)) :
    check.linearizable = false ∧
      found =
        notLeaderResponse check.currentLeader server.nodeId
          server.httpAddr check.app := by
  rcases fails_bind_iff.mp hFails with hCheck | ⟨u, _, hLater⟩
  · rcases ensureLeader_fails_iff.mp hCheck with
      ⟨hLinear, hEq⟩
    cases hEq
    exact ⟨hLinear, rfl⟩
  · exact absurd hLater (hRest u)

/- A leadership error is the response of a failed check. -/
theorem handle_leadership
    {found : NotLeaderResponse}
    (hFails :
      Fails (handle cal server io ctx request)
        (.leadership found)) :
    ∃ check,
      (check = io.firstCheck ∨ check = io.secondCheck) ∧
        check.linearizable = false ∧
        found =
          notLeaderResponse check.currentLeader server.nodeId
            server.httpAddr check.app := by
  cases request with
  | createTimer request =>
      refine
        ⟨_, Or.inl rfl, fails_after_check hFails ?_⟩
      intro u
      by_cases hApplied : io.applied = true
      · simp [hApplied]
      · simp [hApplied]
  | registerWorker request =>
      exact
        ⟨_, Or.inl rfl, fails_after_check hFails (by simp)⟩
  | heartbeatWorker workerId =>
      exact
        ⟨_, Or.inl rfl, fails_after_check hFails (by simp)⟩
  | pollWorker request =>
      rcases fails_bind_iff.mp hFails with
        hCheck | ⟨u, _, hRest⟩
      · rcases ensureLeader_fails_iff.mp hCheck with
          ⟨hLinear, hEq⟩
        cases hEq
        exact ⟨_, Or.inl rfl, hLinear, rfl⟩
      · rcases fails_bind_iff.mp hRest with
          hBeat | ⟨value, _, hRounds⟩
        · exact
            ⟨_, Or.inr rfl,
              fails_after_check hBeat (by simp)⟩
        · exact absurd hRounds pollRounds_not_leadership
  | succeedRun runId request =>
      exact
        ⟨_, Or.inl rfl, fails_after_check hFails (by simp)⟩
  | failRun runId request =>
      exact
        ⟨_, Or.inl rfl, fails_after_check hFails (by simp)⟩
  | joinCluster request =>
      exact
        ⟨_, Or.inl rfl, fails_after_check hFails (by simp)⟩
  | leaveCluster request =>
      exact
        ⟨_, Or.inl rfl, fails_after_check hFails (by simp)⟩
  | raftAppendEntries => simp [handle, raftHandler] at hFails
  | raftVote => simp [handle, raftHandler] at hFails
  | raftInstallSnapshot =>
      simp [handle, raftHandler] at hFails
  | listTimers => exact absurd hFails not_fails_pure
  | statusTimer name => exact absurd hFails not_fails_pure
  | historyTimer name => exact absurd hFails not_fails_pure
  | clusterStatus => exact absurd hFails not_fails_pure
  | shutdownRuntime => exact absurd hFails not_fails_pure

/- An answer of another status is no redirect. -/
theorem not_isRedirect_audited
    {written : Except KronError Unit}
    (hStatus : response.status ≠ 409) :
    ¬ (audited written response).IsRedirect := by
  unfold audited
  cases written with
  | error err =>
      rintro ⟨h, _⟩
      cases h
  | ok u =>
      rintro ⟨h, _⟩
      exact hStatus h

/- The answer to a request whose handler fails. -/
theorem answer_of_fails
    {e : HandlerError}
    (hAuth : auth = .ok ctx)
    (hAllows :
      ctx.role.allows request.requiredRole = true)
    (hFails : Fails (handle cal server io ctx request) e)
    (hResponse :
      errorResponse format (e.toKronError format).toText =
        response) :
    answer format cal server io auth audit request =
      some
        (audited
          (audit (some ctx) request.action "error"
            response.status response.body.errorName)
          response) := by
  subst hAuth hResponse
  have hRun :
      (handle cal server io ctx request).run =
        some (.error e) :=
    hFails
  unfold answer authed
  dsimp only
  rw [if_pos hAllows, hRun]

/- A redirect is the answer to a handler that failed. -/
theorem fails_of_isRedirect
    (hAnswer :
      answer format cal server io auth audit request =
        some response)
    (hRedirect : response.IsRedirect) :
    ∃ ctx e,
      auth = .ok ctx ∧
        ctx.role.allows request.requiredRole = true ∧
        Fails (handle cal server io ctx request) e ∧
        response =
          errorResponse format
            (e.toKronError format).toText ∧
        audit (some ctx) request.action "error" 409
          (some "not_leader") = .ok () := by
  unfold answer authed at hAnswer
  cases auth with
  | error reason =>
      cases hAnswer
      exact
        absurd hRedirect (not_isRedirect_audited (by decide))
  | ok ctx =>
      dsimp only at hAnswer
      by_cases hAllows :
          ctx.role.allows request.requiredRole = true
      · rw [if_pos hAllows] at hAnswer
        rcases hRun :
            (handle cal server io ctx request).run with
          _ | e | value
        · rw [hRun] at hAnswer
          cases hAnswer
        · rw [hRun] at hAnswer
          cases hAnswer
          refine ⟨ctx, e, rfl, hAllows, hRun, ?_⟩
          unfold audited at hRedirect ⊢
          split at hRedirect
          · cases hRedirect.1
          · rename_i hWritten
            refine ⟨rfl, ?_⟩
            rw [hRedirect.1, hRedirect.2.1] at hWritten
            exact hWritten
        · rw [hRun] at hAnswer
          cases hAnswer
          exact
            absurd hRedirect (not_isRedirect_audited (by simp))
      · rw [if_neg hAllows] at hAnswer
        cases hAnswer
        exact
          absurd hRedirect (not_isRedirect_audited (by simp))

/-
  Every redirect comes from a leadership check that failed,
  if and only if no text that an error shows forges one.
-/
theorem redirect_genuine_iff
    (format : JsonFormat)
    (cal : Calendar)
    (server : ServerInfo)
    (io : HandlerIo)
    (auth : Except String AuthContext)
    (audit : AuditWriter)
    (request : Request) :
    (∀ response,
        answer format cal server io auth audit request =
            some response →
          response.IsRedirect →
            Genuine format cal server io auth request
              response) ↔
      ∀ ctx text,
        auth = .ok ctx →
          ctx.role.allows request.requiredRole = true →
          audit (some ctx) request.action "error" 409
              (some "not_leader") = .ok () →
          Shows cal server io ctx request text →
            ¬ Forges format text := by
  constructor
  · intro hGenuine ctx text hAuth hAllows hAudit hShows
      hForges
    rcases handle_forges_iff.mpr ⟨text, hShows, hForges⟩ with
      ⟨err, hFails, hDetail⟩
    have hRedirect :
        (errorResponse format err.toText).IsRedirect :=
      errorResponse_isRedirect_iff.mpr
        (forges_toText_iff.mpr hDetail)
    have hAnswer :
        answer format cal server io auth audit request =
          some (errorResponse format err.toText) := by
      generalize hResponse :
          errorResponse format err.toText = response at *
      rw [answer_of_fails hAuth hAllows hFails hResponse,
        hRedirect.1, hRedirect.2.1, hAudit]
      rfl
    rcases hGenuine _ hAnswer hRedirect with
      ⟨ctx', check, hAuth', _, _, hLeadership, _⟩
    rw [hAuth] at hAuth'
    cases hAuth'
    have hEq := hFails.symm.trans hLeadership
    cases hEq
  · intro hNever response hAnswer hRedirect
    rcases fails_of_isRedirect hAnswer hRedirect with
      ⟨ctx, e, hAuth, hAllows, hFails, hResponse, hAudit⟩
    cases e with
    | leadership found =>
        rcases handle_leadership hFails with
          ⟨check, hCheck, hLinear, rfl⟩
        exact
          ⟨ctx, check, hAuth, hCheck, hLinear, hFails,
            hResponse⟩
    | failed err =>
        rw [hResponse] at hRedirect
        have hForges : Forges format err.detail :=
          forges_toText_iff.mp
            (errorResponse_isRedirect_iff.mp hRedirect)
        rcases handle_forges_iff.mp ⟨err, hFails, hForges⟩ with
          ⟨text, hShows, hText⟩
        exact
          absurd hText
            (hNever ctx text hAuth hAllows hAudit hShows)

/- A timezone that is the text of a redirect. -/
def forgedTimezone : String :=
  "\x7b\"error\":\"not_leader\"," ++
    "\"leader_http\":\"evil.example:80\"\x7d"

def forgedBody : Json :=
  .object
    [("error", .string "not_leader"),
      ("leader_http", .string "evil.example:80")]

/- A parser that reads that text, and no other. -/
def forgedFormat : JsonFormat where
  parse := fun text =>
    if text = forgedTimezone then some forgedBody else none
  print := fun _ => ""

/- A leader whose Raft calls succeed. -/
def leaderIo : HandlerIo where
  firstCheck := ⟨true, some 1, .default⟩
  secondCheck := ⟨true, some 1, .default⟩
  raft := fun _ => .ok ()
  app := PersistedStateMachine.default.appState
  now := 0
  createdAt := 0
  applied := true
  rounds := []
  result := .null

/- A timer in the forged timezone. -/
def forgedRequest : CreateTimerRequest where
  name := "job"
  tenantId := none
  cron := some "* * * * *"
  every := none
  after := none
  at_ := none
  timezone := some forgedTimezone
  maxAttempts := none
  task := "task"
  payload := none

/- The redirect that the forged request gets. -/
theorem redirect_forged :
    ¬ ∀ response,
        answer forgedFormat utcCalendar ⟨1, "", 30⟩ leaderIo
            (.ok ⟨"operator", .operator, none⟩)
            (fun _ _ _ _ _ => .ok ())
            (.createTimer forgedRequest) =
            some response →
          response.IsRedirect →
            Genuine forgedFormat utcCalendar ⟨1, "", 30⟩
              leaderIo (.ok ⟨"operator", .operator, none⟩)
              (.createTimer forgedRequest) response := by
  intro hGenuine
  have hFromBrace :
      fromBrace forgedTimezone = some forgedTimezone := by
    decide
  have hParse :
      forgedFormat.parse forgedTimezone = some forgedBody := by
    simp [forgedFormat]
  have hForges : Forges forgedFormat forgedTimezone :=
    ⟨forgedTimezone, forgedBody, hFromBrace, hParse, rfl, _,
      rfl⟩
  have hRedirect :
      (errorResponse forgedFormat
        (KronError.invalidTimezone
          forgedTimezone).toText).IsRedirect :=
    errorResponse_isRedirect_iff.mpr
      (forges_toText_iff.mpr hForges)
  have hRun :
      createTimer utcCalendar forgedRequest none 0 0 =
        some (.error (.invalidTimezone forgedTimezone)) := by
    rfl
  have hFails :
      Fails
        (handle utcCalendar ⟨1, "", 30⟩ leaderIo
          ⟨"operator", .operator, none⟩
          (.createTimer forgedRequest))
        (.failed (.invalidTimezone forgedTimezone)) := by
    unfold handle createTimerHandler
    simp [leaderIo, hRun]
  rcases hGenuine _
      (answer_of_fails rfl rfl hFails rfl) hRedirect with
    ⟨_, _, _, rfl | rfl, hLinear, _⟩
  · cases hLinear
  · cases hLinear

end Kron
