import Kron.Core.Errors
import Kron.Embedded.Registration

/-
  The Python module around the embedded engine.

  One global state holds the running engine and the
  registrations made before it runs. `start` and `shutdown`
  move values out of it before steps that may fail, and put
  them back on some of the error paths only. A panic is
  raised in Python as an exception, so it counts as an
  error.

  Key definitions include:
    * `Kron.GlobalState`
    * `Kron.PyWorld`
    * `Kron.PyWorld.start`
    * `Kron.PyWorld.shutdown`
    * `Kron.FailsIntact`
    * `Kron.LosesNothing`

  Key theorems include:
    * `Kron.start_error_cases`
    * `Kron.shutdown_error_cases`
    * `Kron.fails_intact_iff`
    * `Kron.start_registers`
-/

------------------------------------------------------------
-- Errors And Timeouts
------------------------------------------------------------

namespace Kron

/- What a call raises: two kinds of errors, or a panic. -/
inductive PyErr where
| value (message : String)
| runtime (message : String)
| panic
deriving DecidableEq, Repr

/- The directory of a file. -/
def parentPath
    (path : String) : Option String :=
  match path.toList.reverse.dropWhile (· ≠ '/') with
  | [] => if path = "" then none else some ""
  | _ :: dir => some (String.ofList dir.reverse)

def socketPath
    (dataDir : String) : String :=
  joinPath dataDir "kron.sock"

/- `map_kron_error`. -/
def mapKronError
    (error : KronError) : PyErr :=
  match error with
  | .invalidCron _ | .invalidTimezone _ =>
      .value error.toText
  | .dataDirLocked path =>
      .runtime
        (error.toText ++
          match parentPath path with
          | none => ""
          | some parent =>
              "; another writer may be active; socket: " ++
                socketPath parent)
  | _ => .runtime error.toText

/- A number of Python. -/
inductive PyFloat where
| nan
| infinite
| finite (value : ℚ)

/- Round to the nearest integer, halves to an even one. -/
def roundHalfEven
    (q : ℚ) : Int :=
  let rest := q - q.floor
  if rest < 1 / 2 then
    q.floor
  else if 1 / 2 < rest then
    q.floor + 1
  else if q.floor % 2 = 0 then
    q.floor
  else
    q.floor + 1

/-
  A timeout in nanoseconds. `Duration::from_secs_f64` panics
  when the seconds do not fit in a `u64`.
-/
def secondsToDuration :
    PyFloat → Except PyErr Nat
| .finite seconds =>
    if seconds < 0 then
      .error (.value "timeout must be a non-negative number")
    else
      let nanos :=
        (roundHalfEven (seconds * 1000000000)).toNat
      if nanos < 2 ^ 64 * 1000000000 then
        .ok nanos
      else
        .error .panic
| _ =>
    .error (.value "timeout must be a non-negative number")

end Kron

------------------------------------------------------------
-- The Global State
------------------------------------------------------------

namespace Kron

/-
  A call of `schedule` before the engine runs. The callable
  is known by its name.
-/
structure PendingRegistration where
  name : String
  schedule : Schedule
  functionName : String
  retry : RetryPolicy
  timezone : String
  overlap : OverlapPolicy
deriving DecidableEq, Repr

/- The running engine, as a reference. -/
structure PyKronRuntime where
  engine : Nat
deriving DecidableEq, Repr

/- What is behind the global lock. -/
structure GlobalState where
  runtime : Option PyKronRuntime
  pending : List PendingRegistration
deriving DecidableEq, Repr

/-
  The global state, whether its lock is poisoned, and the
  engines that were started.
-/
structure PyWorld where
  global : GlobalState
  poisoned : Bool
  engines : List Engine

/- The choices of one registration. -/
structure RegisterIo where
  createdAt : DateTime
  now : DateTime
  io : AppendIo

/- The call that a registration stands for. -/
def PendingRegistration.call
    (registration : PendingRegistration)
    (io : RegisterIo) : ScheduleCall where
  id := registration.name
  schedule := registration.schedule
  fnName := registration.functionName
  retry := some registration.retry
  timezone := some registration.timezone
  overlap := some registration.overlap
  createdAt := io.createdAt
  now := io.now
  io := io.io

/- The error of a poisoned lock. -/
def lockPoisoned : PyErr :=
  .runtime "kron global state lock poisoned"

variable (cal : Calendar)
variable (codec : JsonCodec LogEntry)
variable (snaps : JsonCodec Snapshot)

/- `apply_registration`. -/
def applyRegistration
    (inner : Inner)
    (registration : PendingRegistration)
    (io : RegisterIo) : Except PyErr Inner :=
  match scheduleWithOverlap cal codec inner
      (registration.call io) with
  | none => .error .panic
  | some (_, .error e) => .error (mapKronError e)
  | some (inner, .ok ()) => .ok inner

/- Apply registrations in order; `ios` are their choices. -/
def applyRegistrations
    (ios : Nat → RegisterIo) :
    Inner → List PendingRegistration → Except PyErr Inner
| inner, [] => .ok inner
| inner, registration :: rest =>
    match applyRegistration cal codec inner registration
        (ios rest.length) with
    | .error e => .error e
    | .ok inner => applyRegistrations ios inner rest

end Kron

------------------------------------------------------------
-- Starting
------------------------------------------------------------

namespace Kron

variable (cal : Calendar)
variable (codec : JsonCodec LogEntry)
variable (snaps : JsonCodec Snapshot)

/-
  What a call of `start` meets: the data directory it
  resolves, an I/O error, the lock file and the files there,
  the choices of the registrations, the result of
  `ipc::start_server`, and whether the thread builds its
  tokio runtime.
-/
structure StartEnv where
  dataDir : Except PyErr String
  openIo : Option String
  lockFree : Bool
  dir : DataDir
  ios : Nat → RegisterIo
  ipc : Except KronError Unit
  threadStarts : Bool

/- `Engine::open` with its lock file. -/
def StartEnv.openDir
    (env : StartEnv)
    (dataDir : String) : Except KronError Inner :=
  match env.openIo with
  | some message => .error (.logIo message)
  | none =>
      if env.lockFree then
        openEngine codec snaps dataDir env.dir
      else
        .error
          (.dataDirLocked (joinPath dataDir "kron.lock"))

/- The result of `Engine::start`. -/
def Engine.startResult
    (engine : Engine) : Except KronError Unit :=
  if engine.inner.runtime.stopped then
    .error .alreadyStopped
  else if engine.inner.runtime.started then
    .error .alreadyStarted
  else
    .ok ()

/-
  `start` once the engine is open. The registrations are
  taken from the global state first, and a panic while they
  are applied poisons the lock.
-/
def PyWorld.startOpened
    (world : PyWorld)
    (env : StartEnv)
    (inner : Inner) : PyWorld × Except PyErr Unit :=
  let pending := world.global.pending
  let world :=
    { world with
      global := { world.global with pending := [] } }
  match applyRegistrations cal codec env.ios inner
      pending with
  | .error e =>
      ({ world with poisoned := e = .panic }, .error e)
  | .ok inner =>
      match env.ipc with
      | .error e => (world, .error (mapKronError e))
      | .ok () =>
          if env.threadStarts then
            match (Engine.ofInner inner).startResult with
            | .error e => (world, .error (.runtime e.toText))
            | .ok () =>
                ({ world with
                    global :=
                      { world.global with
                        runtime :=
                          some
                            { engine :=
                                world.engines.length } }
                    engines :=
                      world.engines ++
                        [(Engine.ofInner inner).start] },
                  .ok ())
          else
            (world,
              .error
                (.runtime
                  "kron runtime thread failed to start"))

/- `start`. -/
def PyWorld.start
    (world : PyWorld)
    (env : StartEnv) : PyWorld × Except PyErr Unit :=
  if world.poisoned then
    (world, .error lockPoisoned)
  else if world.global.runtime.isSome then
    (world, .error (mapKronError .alreadyStarted))
  else
    match env.dataDir with
    | .error e => (world, .error e)
    | .ok dataDir =>
        match env.openDir codec snaps dataDir with
        | .error e => (world, .error (mapKronError e))
        | .ok inner => world.startOpened cal codec env inner

end Kron

------------------------------------------------------------
-- Shutting Down
------------------------------------------------------------

namespace Kron

variable (cal : Calendar)
variable (codec : JsonCodec LogEntry)
variable (snaps : JsonCodec Snapshot)

/- A shutdown of the engine has to wait. -/
def Engine.Waits
    (engine : Engine) : Prop :=
  engine.inner.runtime.stopped = false ∧
    engine.inner.runtime.started = true

instance
    (engine : Engine) :
    Decidable engine.Waits :=
  inferInstanceAs (Decidable (_ ∧ _))

/- `as_millis() as u64`. -/
def asMillis
    (nanos : Nat) : Nat :=
  nanos / 1000000 % 2 ^ 64

/-
  `Engine::shutdown`, with the sections of other threads
  while it waits. `none` is no possible course.
-/
def Engine.shutdown
    (engine : Engine)
    (nanos : Nat)
    (during : List Section)
    (timesOut : Bool) :
    Option (Engine × Except KronError Unit) :=
  if engine.Waits then do
    let engine ←
      engine.shutdownBegin.run cal codec snaps during
    if timesOut then
      let engine ←
        engine.step cal codec snaps .shutdownTimeout
      some
        (engine, .error (.shutdownTimeout (asMillis nanos)))
    else
      let engine ←
        engine.run cal codec snaps
          [.shutdownCheck, .shutdownEnd]
      some (engine, .ok ())
  else
    some (engine.shutdownBegin, .ok ())

/-
  What a call of `shutdown` meets: its timeout, an error of
  the tokio runtime, the course of `Engine::shutdown`, and
  whether the thread of the engine had panicked.
-/
structure ShutdownEnv where
  timeout : PyFloat
  tokio : Option String
  during : List Section
  timesOut : Bool
  threadPanicked : Bool

/- `shutdown` once the runtime is taken and the timeout read. -/
def PyWorld.shutdownTaken
    (world : PyWorld)
    (env : ShutdownEnv)
    (runtime : PyKronRuntime)
    (nanos : Nat) : Option (PyWorld × Except PyErr Unit) :=
  let restored : PyWorld :=
    { world with
      global :=
        { world.global with runtime := some runtime } }
  match env.tokio with
  | some message => some (restored, .error (.runtime message))
  | none => do
      let engine ← world.engines[runtime.engine]?
      let (engine, result) ←
        engine.shutdown cal codec snaps nanos env.during
          env.timesOut
      let engines := world.engines.set runtime.engine engine
      match result with
      | .error e =>
          some
            ({ restored with engines := engines },
              .error (mapKronError e))
      | .ok () =>
          if env.threadPanicked then
            some
              ({ world with engines := engines },
                .error
                  (.runtime "kron runtime thread panicked"))
          else
            some ({ world with engines := engines }, .ok ())

/- `shutdown`; `none` is no possible course. -/
def PyWorld.shutdown
    (world : PyWorld)
    (env : ShutdownEnv) :
    Option (PyWorld × Except PyErr Unit) :=
  if world.poisoned then
    some (world, .error lockPoisoned)
  else
    match world.global.runtime with
    | none => some (world, .ok ())
    | some runtime =>
        let taken : PyWorld :=
          { world with
            global := { world.global with runtime := none } }
        match secondsToDuration env.timeout with
        | .error e => some (taken, .error e)
        | .ok nanos =>
            taken.shutdownTaken cal codec snaps env runtime
              nanos

end Kron

------------------------------------------------------------
-- What A Start Registers
------------------------------------------------------------

namespace Kron

variable {cal : Calendar}
variable {codec : JsonCodec LogEntry}
variable {snaps : JsonCodec Snapshot}

/- One registration adds its name and keeps the others. -/
theorem applyRegistration_registry
    {inner inner' : Inner}
    {registration : PendingRegistration}
    {io : RegisterIo}
    (hApply :
      applyRegistration cal codec inner registration io =
        .ok inner') :
    inner'.registry =
      inner.registry.insert registration.name
        registration.functionName := by
  unfold applyRegistration at hApply
  split at hApply
  · cases hApply
  · cases hApply
  · rename_i next hCall
    cases hApply
    exact
      (scheduleOutcome_of_eq_some hCall).registry_of_ok

/- Applied registrations are in the registry. -/
theorem applyRegistrations_registry
    {ios : Nat → RegisterIo}
    {inner inner' : Inner}
    {pending : List PendingRegistration}
    (hApply :
      applyRegistrations cal codec ios inner pending =
        .ok inner') :
    ∀ id,
      (id ∈ inner.registry ∨
          ∃ registration ∈ pending,
            registration.name = id) →
        id ∈ inner'.registry := by
  induction pending generalizing inner with
  | nil =>
      cases hApply
      intro id hId
      rcases hId with hOld | ⟨_, hMem, _⟩
      · exact hOld
      · cases hMem
  | cons registration rest ih =>
      unfold applyRegistrations at hApply
      cases hOne :
          applyRegistration cal codec inner registration
            (ios rest.length) with
      | error e => simp [hOne] at hApply
      | ok next =>
          simp only [hOne] at hApply
          have hRegistry := applyRegistration_registry hOne
          intro id hId
          apply ih hApply
          rcases hId with hOld | ⟨r, hMem, hName⟩
          · left
            rw [hRegistry]
            simp [hOld]
          · rcases List.mem_cons.mp hMem with hEq | hRest
            · left
              rw [hRegistry, ← hName, hEq]
              simp
            · exact Or.inr ⟨r, hRest, hName⟩

/-
  A `start` that succeeds puts the engine it started into the
  slot, with every pending registration applied to it.
-/
theorem start_registers
    {world world' : PyWorld}
    {env : StartEnv}
    (hStart :
      world.start cal codec snaps env = (world', .ok ())) :
    ∃ runtime engine,
      world'.global =
          { runtime := some runtime, pending := [] } ∧
        world'.engines[runtime.engine]? = some engine ∧
        ∀ registration ∈ world.global.pending,
          registration.name ∈ engine.inner.registry := by
  unfold PyWorld.start at hStart
  split at hStart
  · cases hStart
  · split at hStart
    · cases hStart
    · split at hStart
      · cases hStart
      · split at hStart
        · cases hStart
        · rename_i inner _
          unfold PyWorld.startOpened at hStart
          simp only at hStart
          split at hStart
          · cases hStart
          · rename_i applied hApply
            split at hStart
            · cases hStart
            · split at hStart
              · split at hStart
                · cases hStart
                · cases hStart
                  refine
                    ⟨{ engine := world.engines.length },
                      (Engine.ofInner applied).start, rfl,
                      by simp, ?_⟩
                  intro registration hMem
                  have hSame :
                      (Engine.ofInner
                          applied).start.inner.registry =
                        applied.registry := by
                    unfold Engine.start
                    split <;> rfl
                  rw [hSame]
                  exact
                    applyRegistrations_registry hApply _
                      (Or.inr ⟨registration, hMem, rfl⟩)
              · cases hStart

end Kron

------------------------------------------------------------
-- Failed Calls
------------------------------------------------------------

namespace Kron

inductive PyCall where
| start (env : StartEnv)
| shutdown (env : ShutdownEnv)

def PyWorld.call
    (cal : Calendar)
    (codec : JsonCodec LogEntry)
    (snaps : JsonCodec Snapshot)
    (world : PyWorld) :
    PyCall → Option (PyWorld × Except PyErr Unit)
| .start env => some (world.start cal codec snaps env)
| .shutdown env => world.shutdown cal codec snaps env

/- The data directory is not found or cannot be opened. -/
def StartEnv.FailsToOpen
    (codec : JsonCodec LogEntry)
    (snaps : JsonCodec Snapshot)
    (env : StartEnv) : Prop :=
  (∃ e, env.dataDir = .error e) ∨
    ∃ dataDir e,
      env.dataDir = .ok dataDir ∧
        env.openDir codec snaps dataDir = .error e

/- The engine of a world waits until its shutdown times out. -/
def PyWorld.TimesOut
    (world : PyWorld)
    (env : ShutdownEnv) : Prop :=
  env.timesOut = true ∧
    ∃ runtime engine,
      world.global.runtime = some runtime ∧
        world.engines[runtime.engine]? = some engine ∧
        engine.Waits

/-
  The failures that lose nothing: a `start` that does not get
  as far as the registrations or has none to lose, and a
  `shutdown` with a valid timeout that cannot build its
  runtime or times out.
-/
def LosesNothing
    (codec : JsonCodec LogEntry)
    (snaps : JsonCodec Snapshot)
    (world : PyWorld) : PyCall → Prop
| .start env =>
    world.poisoned = true ∨
      world.global.runtime.isSome = true ∨
      world.global.pending = [] ∨
      env.FailsToOpen codec snaps
| .shutdown env =>
    world.poisoned = true ∨
      (∃ nanos, secondsToDuration env.timeout = .ok nanos) ∧
        (env.tokio.isSome = true ∨ world.TimesOut env)

variable {cal : Calendar}
variable {codec : JsonCodec LogEntry}
variable {snaps : JsonCodec Snapshot}
variable {world world' : PyWorld}
variable {e : PyErr}

/- A failure after the engine is open loses what was pending. -/
theorem startOpened_error
    {env : StartEnv}
    {inner : Inner}
    (hStart :
      world.startOpened cal codec env inner =
        (world', .error e)) :
    world'.global = { world.global with pending := [] } := by
  unfold PyWorld.startOpened at hStart
  simp only at hStart
  split at hStart
  · cases hStart
    rfl
  · split at hStart
    · cases hStart
      rfl
    · split at hStart
      · split at hStart
        · cases hStart
          rfl
        · cases hStart
      · cases hStart
        rfl

/- A `start` that opens its directory goes on. -/
theorem start_of_opened
    {env : StartEnv}
    {dataDir : String}
    {inner : Inner}
    (hLock : world.poisoned = false)
    (hIdle : world.global.runtime = none)
    (hDir : env.dataDir = .ok dataDir)
    (hOpen : env.openDir codec snaps dataDir = .ok inner) :
    world.start cal codec snaps env =
      world.startOpened cal codec env inner := by
  unfold PyWorld.start
  rw [if_neg (by simp [hLock]), if_neg (by simp [hIdle])]
  simp only [hDir, hOpen]

/- A failed `start` is clean, or loses what was pending. -/
theorem start_error_cases
    {env : StartEnv}
    (hStart :
      world.start cal codec snaps env =
        (world', .error e)) :
    ((world.poisoned = true ∨
          world.global.runtime.isSome = true ∨
          env.FailsToOpen codec snaps) ∧
        world'.global = world.global) ∨
      ((¬ world.poisoned = true ∧
          ¬ world.global.runtime.isSome = true ∧
          ¬ env.FailsToOpen codec snaps) ∧
        world'.global =
          { world.global with pending := [] }) := by
  unfold PyWorld.start at hStart
  by_cases hPoisoned : world.poisoned = true
  · rw [if_pos hPoisoned] at hStart
    cases hStart
    exact Or.inl ⟨Or.inl hPoisoned, rfl⟩
  · rw [if_neg hPoisoned] at hStart
    by_cases hRuns : world.global.runtime.isSome = true
    · rw [if_pos hRuns] at hStart
      cases hStart
      exact Or.inl ⟨Or.inr (Or.inl hRuns), rfl⟩
    · rw [if_neg hRuns] at hStart
      cases hDir : env.dataDir with
      | error err =>
          simp only [hDir] at hStart
          cases hStart
          exact
            Or.inl
              ⟨Or.inr (Or.inr (Or.inl ⟨_, hDir⟩)), rfl⟩
      | ok dataDir =>
          simp only [hDir] at hStart
          cases hOpen : env.openDir codec snaps dataDir with
          | error err =>
              simp only [hOpen] at hStart
              cases hStart
              exact
                Or.inl
                  ⟨Or.inr (Or.inr
                    (Or.inr ⟨dataDir, err, hDir, hOpen⟩)),
                    rfl⟩
          | ok inner =>
              simp only [hOpen] at hStart
              have hOpens :
                  ¬ env.FailsToOpen codec snaps := by
                rintro
                  (⟨err, hErr⟩ | ⟨dataDir', err, hDir', hErr⟩)
                · rw [hDir] at hErr
                  cases hErr
                · rw [hDir] at hDir'
                  cases hDir'
                  rw [hOpen] at hErr
                  cases hErr
              exact
                Or.inr
                  ⟨⟨hPoisoned, hRuns, hOpens⟩,
                    startOpened_error hStart⟩

/- The engine's own shutdown fails only by timing out. -/
theorem Engine.shutdown_cases
    {engine engine' : Engine}
    {nanos : Nat}
    {during : List Section}
    {timesOut : Bool}
    {result : Except KronError Unit}
    (hShutdown :
      engine.shutdown cal codec snaps nanos during timesOut =
        some (engine', result)) :
    ((∃ err, result = .error err) ↔
      timesOut = true ∧ engine.Waits) := by
  unfold Engine.shutdown at hShutdown
  by_cases hWaits : engine.Waits
  · rw [if_pos hWaits] at hShutdown
    rcases Option.bind_eq_some_iff.mp hShutdown with
      ⟨mid, _, hRest⟩
    by_cases hTimesOut : timesOut = true
    · rw [if_pos hTimesOut] at hRest
      rcases Option.bind_eq_some_iff.mp hRest with
        ⟨last, _, hEnd⟩
      cases hEnd
      simp [hTimesOut, hWaits]
    · rw [if_neg hTimesOut] at hRest
      rcases Option.bind_eq_some_iff.mp hRest with
        ⟨last, _, hEnd⟩
      cases hEnd
      simp [hTimesOut]
  · rw [if_neg hWaits] at hShutdown
    cases hShutdown
    simp [hWaits]

/-
  A failed `shutdown` with a valid timeout puts the runtime
  back unless the thread of the engine had panicked.
-/
theorem shutdownTaken_error_cases
    {taken : PyWorld}
    {env : ShutdownEnv}
    {runtime : PyKronRuntime}
    {nanos : Nat}
    (hRuntime : world.global.runtime = some runtime)
    (hTaken :
      taken =
        { world with
          global := { world.global with runtime := none } })
    (hShutdown :
      taken.shutdownTaken cal codec snaps env runtime
          nanos =
        some (world', .error e)) :
    ((env.tokio.isSome = true ∨ world.TimesOut env) ∧
        world'.global = world.global) ∨
      (¬ (env.tokio.isSome = true ∨ world.TimesOut env) ∧
        world'.global.runtime = none) := by
  have hRestored :
      { world.global with runtime := some runtime } =
        world.global := by
    rw [← hRuntime]
  subst hTaken
  unfold PyWorld.shutdownTaken at hShutdown
  cases hTokio : env.tokio with
  | some message =>
      simp only [hTokio] at hShutdown
      cases hShutdown
      exact Or.inl ⟨Or.inl rfl, hRestored⟩
  | none =>
      simp only [hTokio] at hShutdown
      rcases Option.bind_eq_some_iff.mp hShutdown with
        ⟨engine, hGet, hRest⟩
      rcases Option.bind_eq_some_iff.mp hRest with
        ⟨⟨engine', result⟩, hResult, hEnd⟩
      have hCases := Engine.shutdown_cases hResult
      have hTimesOut :
          world.TimesOut env ↔
            env.timesOut = true ∧ engine.Waits := by
        constructor
        · rintro ⟨hTimes, runtime', engine'', hRt, hGet', hW⟩
          rw [hRuntime] at hRt
          cases hRt
          rw [hGet] at hGet'
          cases hGet'
          exact ⟨hTimes, hW⟩
        · rintro ⟨hTimes, hW⟩
          exact ⟨hTimes, runtime, engine, hRuntime, hGet, hW⟩
      cases result with
      | error err =>
          cases hEnd
          exact
            Or.inl
              ⟨Or.inr (hTimesOut.mpr (hCases.mp ⟨_, rfl⟩)),
                hRestored⟩
      | ok _ =>
          simp only at hEnd
          split at hEnd
          · cases hEnd
            refine Or.inr ⟨?_, rfl⟩
            rintro (hSome | hTimes)
            · cases hSome
            · rcases hCases.mpr (hTimesOut.mp hTimes) with
                ⟨_, hErr⟩
              cases hErr
          · cases hEnd

/- A failed `shutdown` is clean, or loses the engine. -/
theorem shutdown_error_cases
    {env : ShutdownEnv}
    (hShutdown :
      world.shutdown cal codec snaps env =
        some (world', .error e)) :
    LosesNothing codec snaps world (.shutdown env) ∧
        world'.global = world.global ∨
      ¬ LosesNothing codec snaps world (.shutdown env) ∧
        world.global.runtime.isSome = true ∧
        world'.global.runtime = none := by
  unfold PyWorld.shutdown at hShutdown
  by_cases hPoisoned : world.poisoned = true
  · rw [if_pos hPoisoned] at hShutdown
    cases hShutdown
    exact Or.inl ⟨Or.inl hPoisoned, rfl⟩
  · rw [if_neg hPoisoned] at hShutdown
    cases hRuntime : world.global.runtime with
    | none =>
        simp only [hRuntime] at hShutdown
        cases hShutdown
    | some runtime =>
        simp only [hRuntime] at hShutdown
        cases hTimeout : secondsToDuration env.timeout with
        | error err =>
            simp only [hTimeout] at hShutdown
            cases hShutdown
            refine Or.inr ⟨?_, rfl, rfl⟩
            rintro (hLock | ⟨⟨nanos, hValid⟩, _⟩)
            · exact hPoisoned hLock
            · rw [hTimeout] at hValid
              cases hValid
        | ok nanos =>
            simp only [hTimeout] at hShutdown
            rcases shutdownTaken_error_cases hRuntime rfl
                hShutdown with
              ⟨hClean, hSame⟩ | ⟨hDirty, hNone⟩
            · exact
                Or.inl
                  ⟨Or.inr ⟨⟨nanos, hTimeout⟩, hClean⟩,
                    hSame⟩
            · refine Or.inr ⟨?_, rfl, hNone⟩
              rintro (hLock | ⟨_, hClean⟩)
              · exact hPoisoned hLock
              · exact hDirty hClean

/-
  A call that returns an error leaves the global state as it
  was exactly when the failure is one that loses nothing.
-/
theorem fails_intact_iff
    (cal : Calendar)
    (codec : JsonCodec LogEntry)
    (snaps : JsonCodec Snapshot)
    (world world' : PyWorld)
    (call : PyCall)
    (e : PyErr)
    (hFails :
      world.call cal codec snaps call =
        some (world', .error e)) :
    world'.global = world.global ↔
      LosesNothing codec snaps world call := by
  cases call with
  | start env =>
      have hStart := Option.some.inj hFails
      rcases start_error_cases hStart with
        ⟨hClean, hSame⟩ | ⟨⟨hLock, hRuns, hOpens⟩, hLost⟩
      · refine ⟨fun _ => ?_, fun _ => hSame⟩
        rcases hClean with hLock | hRuns | hOpens
        · exact Or.inl hLock
        · exact Or.inr (Or.inl hRuns)
        · exact Or.inr (Or.inr (Or.inr hOpens))
      · rw [hLost]
        constructor
        · intro hSame
          have hNone := congrArg GlobalState.pending hSame
          exact Or.inr (Or.inr (Or.inl hNone.symm))
        · intro hClean
          rcases hClean with hLock' | hRuns' | hNone | hOpens'
          · exact (hLock hLock').elim
          · exact (hRuns hRuns').elim
          · rw [← hNone]
          · exact (hOpens hOpens').elim
  | shutdown env =>
      rcases shutdown_error_cases hFails with
        ⟨hClean, hSame⟩ | ⟨hDirty, hRuns, hNone⟩
      · exact ⟨fun _ => hClean, fun _ => hSame⟩
      · constructor
        · intro hSame
          rw [hSame] at hNone
          rw [hNone] at hRuns
          cases hRuns
        · intro hClean
          exact (hDirty hClean).elim

/- A registration for every minute. -/
def minuteRegistration : PendingRegistration where
  name := "a"
  schedule := .every 60
  functionName := "sync"
  retry := RetryPolicy.noRetry
  timezone := "UTC"
  overlap := .delay

/- One registration waits for the engine. -/
def pendingWorld : PyWorld where
  global := { runtime := none, pending := [minuteRegistration] }
  poisoned := false
  engines := []

/- The data directory is empty, and everything succeeds. -/
def freshEnv : StartEnv where
  dataDir := .ok "/data"
  openIo := none
  lockFree := true
  dir := ∅
  ios := fun _ =>
    { createdAt := 0, now := 0, io := appendAt 0 }
  ipc := .ok ()
  threadStarts := true

/- Another engine has locked the directory. -/
theorem fails_intact_iff_locked :
    ∃ world' e,
      pendingWorld.call utcCalendar logCodec noSnapshots
          (.start { freshEnv with lockFree := false }) =
        some (world', .error e) ∧
      world'.global = pendingWorld.global := by
  have hLocked :
      StartEnv.FailsToOpen logCodec noSnapshots
        { freshEnv with lockFree := false } :=
    Or.inr
      ⟨"/data", .dataDirLocked "/data/kron.lock", rfl, rfl⟩
  have hFails :
      pendingWorld.call utcCalendar logCodec noSnapshots
          (.start { freshEnv with lockFree := false }) =
        some
          (pendingWorld,
            .error
              (mapKronError
                (.dataDirLocked "/data/kron.lock"))) :=
    rfl
  refine ⟨pendingWorld, _, hFails, ?_⟩
  exact
    (fails_intact_iff utcCalendar logCodec noSnapshots
      pendingWorld pendingWorld _ _ hFails).mpr
      (Or.inr (Or.inr (Or.inr hLocked)))

/- The socket of the server is in use. -/
def boundEnv : StartEnv :=
  { freshEnv with
    ipc := .error (.logIo "Address already in use") }

/- A shutdown with a negative timeout. -/
def negativeEnv : ShutdownEnv where
  timeout := .finite (-1)
  tokio := none
  during := []
  timesOut := false
  threadPanicked := false

/-
  The registration is lost when the server cannot be bound,
  and a running engine is lost to a negative timeout.
-/
theorem fails_not_intact :
    (∃ world' e,
      pendingWorld.call utcCalendar logCodec noSnapshots
          (.start boundEnv) = some (world', .error e) ∧
      world'.global.pending = []) ∧
    ∃ started world' e,
      pendingWorld.call utcCalendar logCodec noSnapshots
          (.start freshEnv) = some (started, .ok ()) ∧
      started.global.runtime = some { engine := 0 } ∧
      started.call utcCalendar logCodec noSnapshots
          (.shutdown negativeEnv) =
        some (world', .error e) ∧
      world'.global.runtime = none := by
  -- The calls do not depend on the texts.
  generalize logCodec = codec
  generalize noSnapshots = snaps
  have hBound :
      pendingWorld.call utcCalendar codec snaps
          (.start boundEnv) =
        some
          ({ pendingWorld with
              global := { runtime := none, pending := [] } },
            .error
              (mapKronError
                (.logIo "Address already in use"))) := by
    have hApplied :
        (applyRegistrations utcCalendar codec boundEnv.ios
          (Inner.opened ∅ EngineState.new)
          pendingWorld.global.pending).toBool = true := by
      cbv
    have hOpened :=
      @start_of_opened utcCalendar codec snaps pendingWorld
        boundEnv _ _ rfl rfl rfl
        (openEngine_empty codec snaps "/data")
    cases hResult :
        applyRegistrations utcCalendar codec boundEnv.ios
          (Inner.opened ∅ EngineState.new)
          pendingWorld.global.pending with
    | error _ =>
        rw [hResult] at hApplied
        cases hApplied
    | ok inner =>
        simp only [PyWorld.call, hOpened,
          PyWorld.startOpened, hResult]
        rfl
  have hStarts :
      (pendingWorld.start utcCalendar codec snaps
        freshEnv).2 = .ok () := by
    cbv
  have hRuntime :
      (pendingWorld.start utcCalendar codec snaps
          freshEnv).1.global.runtime =
        some { engine := 0 } := by
    cbv
  have hLock :
      (pendingWorld.start utcCalendar codec snaps
        freshEnv).1.poisoned = false := by
    cbv
  have hTimeout :
      secondsToDuration negativeEnv.timeout =
        .error
          (.value "timeout must be a non-negative number") := by
    simp [secondsToDuration, negativeEnv]
  refine
    ⟨⟨_, _, hBound, rfl⟩,
      (pendingWorld.start utcCalendar codec snaps
        freshEnv).1,
      { (pendingWorld.start utcCalendar codec snaps
          freshEnv).1 with
        global :=
          { (pendingWorld.start utcCalendar codec snaps
              freshEnv).1.global with runtime := none } },
      .value "timeout must be a non-negative number",
      congrArg some (Prod.ext rfl hStarts), hRuntime, ?_,
      rfl⟩
  simp only [PyWorld.call, PyWorld.shutdown, hLock,
    hRuntime, hTimeout, Bool.false_eq_true, if_false]

end Kron
