import Kron.Core.Errors
import Kron.Embedded.Processes
import Kron.Lib.HttpText
import Kron.Server.Authentication

/-
  The local control socket of the embedded engine.

  A client writes one line that carries a token and a
  request, and reads one line. Both sides refuse a line of
  more than a mebibyte. An answer may so get lost after the
  request was carried out; the command line then reads the
  data directory by itself.

  Key definitions include:
    * `Kron.Ipc.IpcRequest`
    * `Kron.Ipc.readLimitedLine`
    * `Kron.Ipc.handleStream`
    * `Kron.Ipc.request`
    * `Kron.Ipc.jobHistory`

  Key theorems include:
    * `Kron.Ipc.readLimitedLine_of_le`
    * `Kron.Ipc.request_exact`
    * `Kron.Ipc.job_history_agrees`
-/

------------------------------------------------------------
-- Requests And Answers
------------------------------------------------------------

namespace Kron

namespace Ipc

inductive IpcRequest where
| auth (token : String) (inner : IpcRequest)
| status (name : String)
| list
| history (name : String) (limit : Option Nat)
| shutdown
| compact
| doctor
| runtimeStatus
deriving DecidableEq

inductive IpcResponse (Value : Type) where
| ok (data : Value)
| error (message : String)
deriving DecidableEq

/-
  The JSON of the messages and of what they hold; `Value` is
  the type of JSON values. `asArray` reads the items of an
  array.
-/
structure IpcCodecs (Value : Type) where
  request : JsonCodec IpcRequest
  response : JsonCodec (IpcResponse Value)
  log : JsonCodec LogEntry
  summary : Option TimerSummary → Value
  summaries : List TimerSummary → Value
  entry : LogEntry → Value
  array : List Value → Value
  asArray : Value → Except String (List Value)
  shutdownRequested : Value
  compacted : Value
  report : String → String → String → Nat → Value

/- A message is one line, and is read back with its end. -/
structure SendsLine
    {α : Type}
    (codec : JsonCodec α)
    (a : α) : Prop where
  noNewline : '\n' ∉ (codec.toText a).toList
  decodes : codec.fromText (codec.toText a ++ "\n") = .ok a

/- What is sent is read, and an array has its items. -/
structure IpcCodecs.Lawful
    {Value : Type}
    (codecs : IpcCodecs Value) : Prop where
  request : ∀ a, SendsLine codecs.request a
  response : ∀ a, SendsLine codecs.response a
  array :
    ∀ values, codecs.asArray (codecs.array values) = .ok values

/- The directory of an engine and the file of its lock. -/
structure EnginePaths where
  dataDir : String
  lockPath : String

def socketPath
    (dataDir : String) : String :=
  joinPath dataDir "kron.sock"

/- The engine, and whether a shutdown was started. -/
structure Handled where
  engine : Engine
  shutdown : Bool

variable {Value : Type}
variable (codecs : IpcCodecs Value)
variable (snaps : JsonCodec Snapshot)
variable (paths : EnginePaths)
variable (now later : DateTime)

/- The engine after `Engine::compact`. -/
def compacted
    (engine : Engine) : Engine :=
  { engine with
    inner :=
      { engine.inner with
        dir :=
          FileSystem.runAll engine.inner.dir
            (Kron.compact snaps engine.inner.dir
              engine.inner.state now later) } }

def handleRequest
    (engine : Engine) :
    IpcRequest → Handled × Except KronError Value
| .auth _ _ =>
    (⟨engine, false⟩,
      .error
        (.ipcUnavailable "nested auth request is invalid"))
| .status name =>
    (⟨engine, false⟩,
      .ok (codecs.summary (engine.inner.state.summary name)))
| .list =>
    (⟨engine, false⟩,
      .ok (codecs.summaries engine.inner.state.list))
| .history name limit =>
    (⟨engine, false⟩,
      (history codecs.log paths.dataDir engine.inner.dir name
        limit).map fun entries =>
          codecs.array (entries.map codecs.entry))
| .shutdown =>
    -- the shutdown goes on in a thread of its own
    (⟨engine, true⟩, .ok codecs.shutdownRequested)
| .compact =>
    (⟨compacted snaps now later engine, false⟩,
      .ok codecs.compacted)
| .doctor | .runtimeStatus =>
    (⟨engine, false⟩,
      .ok
        (codecs.report paths.dataDir paths.lockPath
          (socketPath paths.dataDir)
          engine.inner.state.list.length))

end Ipc

end Kron

------------------------------------------------------------
-- Lines On The Socket
------------------------------------------------------------

namespace Kron

namespace Ipc

open HttpText
open Text

def maxIpcLineBytes : Nat :=
  1024 * 1024

def tooLong : KronError :=
  .ipcUnavailable "IPC request exceeded maximum line size"

/- At most one byte more than the limit is read. -/
def readLimitedLine
    (input : Bytes) : Except KronError String :=
  let line := (readLine (input.take (maxIpcLineBytes + 1))).1
  match fromUtf8 line with
  | none =>
      .error (.logIo "stream did not contain valid UTF-8")
  | some text =>
      if maxIpcLineBytes < line.length ∨
          line.getLast? ≠ some newline then
        .error tooLong
      else
        .ok text

variable {Value : Type}
variable (codecs : IpcCodecs Value)
variable (snaps : JsonCodec Snapshot)
variable (paths : EnginePaths)
variable (now later : DateTime)

def respond
    (result : Except KronError Value) : IpcResponse Value :=
  match result with
  | .ok data => .ok data
  | .error e => .error e.toText

/- A message as it is written. -/
def sent
    {α : Type}
    (codec : JsonCodec α)
    (a : α) : Bytes :=
  utf8 (codec.toText a ++ "\n")

/-
  One connection: the engine afterwards, and what is written.
  A line that cannot be read or parsed gets no answer.
-/
def handleStream
    (expectedToken : String)
    (engine : Engine)
    (input : Bytes) : Handled × Bytes :=
  match readLimitedLine input with
  | .error _ => (⟨engine, false⟩, [])
  | .ok line =>
      match codecs.request.fromText line with
      | .error _ => (⟨engine, false⟩, [])
      | .ok (.auth token inner) =>
          if secureEq (utf8 token) (utf8 expectedToken) then
            let handled :=
              handleRequest codecs snaps paths now later
                engine inner
            (handled.1,
              sent codecs.response (respond handled.2))
          else
            (⟨engine, false⟩,
              sent codecs.response
                (.error "invalid IPC token"))
      | .ok _ =>
          (⟨engine, false⟩,
            sent codecs.response
              (.error "missing IPC token"))

/-
  `request` with the token of the data directory, over a
  connection to the engine.
-/
def request
    (token expectedToken : String)
    (engine : Engine)
    (inner : IpcRequest) :
    Handled × Except KronError (IpcResponse Value) :=
  let served :=
    handleStream codecs snaps paths now later expectedToken
      engine (sent codecs.request (.auth token inner))
  (served.1,
    match readLimitedLine served.2 with
    | .error e => .error e
    | .ok line =>
        match codecs.response.fromText line with
        | .error e => .error (.logSerde e)
        | .ok response => .ok response)

/-
  What `kron job history` prints: the items of an answer, or
  else what it reads by itself.
-/
def jobHistory
    (dataDir : String)
    (dir : DataDir)
    (answer : Except KronError (IpcResponse Value))
    (name : String)
    (limit : Option Nat) : Except String (List Value) :=
  match answer with
  | .ok (.ok data) => codecs.asArray data
  | _ =>
      match history codecs.log dataDir dir name limit with
      | .error e => .error e.toText
      | .ok entries => .ok (entries.map codecs.entry)

end Ipc

end Kron

------------------------------------------------------------
-- What Fits Is Read
------------------------------------------------------------

namespace Kron

namespace Ipc

open HttpText
open Text

theorem readLine_of_no_newline
    {bs : Bytes}
    (hNo : newline ∉ bs) :
    (readLine bs).1 = bs := by
  induction bs with
  | nil => rfl
  | cons b bs ih =>
      have hb : b ≠ newline := by
        rintro rfl
        exact hNo List.mem_cons_self
      unfold readLine
      rw [if_neg hb, ih fun hMem =>
        hNo (List.mem_cons_of_mem _ hMem)]

theorem utf8_line
    (text : String) :
    utf8 (text ++ "\n") = utf8 text ++ [newline] := by
  rw [utf8_append]
  rfl

/- A line within the limit is read. -/
theorem readLimitedLine_of_le
    {text : String}
    (hText : '\n' ∉ text.toList)
    (hLe : (utf8 (text ++ "\n")).length ≤ maxIpcLineBytes) :
    readLimitedLine (utf8 (text ++ "\n")) =
      .ok (text ++ "\n") := by
  have hNo : newline ∉ utf8 text := by
    rw [newline_mem_utf8_iff]
    exact hText
  have hTake :
      (utf8 (text ++ "\n")).take (maxIpcLineBytes + 1) =
        utf8 (text ++ "\n") :=
    List.take_of_length_le (Nat.le_succ_of_le hLe)
  have hLine :
      (readLine (utf8 (text ++ "\n"))).1 =
        utf8 (text ++ "\n") := by
    rw [utf8_line, readLine_append hNo []]
  unfold readLimitedLine
  simp only [hTake, hLine, fromUtf8_utf8]
  rw [if_neg]
  rintro (hLt | hEnd)
  · exact Nat.not_le_of_lt hLt hLe
  · apply hEnd
    rw [utf8_line, List.getLast?_append]
    rfl

/- A line over the limit is refused. -/
theorem readLimitedLine_of_lt
    {text : String}
    (hText : '\n' ∉ text.toList)
    (hLt : maxIpcLineBytes < (utf8 (text ++ "\n")).length) :
    ∃ e, readLimitedLine (utf8 (text ++ "\n")) = .error e := by
  have hNo : newline ∉ utf8 text := by
    rw [newline_mem_utf8_iff]
    exact hText
  -- the bytes that are read are more than the limit
  have hLine :
      (readLine
        ((utf8 (text ++ "\n")).take
          (maxIpcLineBytes + 1))).1.length =
        maxIpcLineBytes + 1 := by
    rw [utf8_line] at hLt ⊢
    by_cases hFits :
        (utf8 text ++ [newline]).length ≤ maxIpcLineBytes + 1
    · rw [List.take_of_length_le hFits,
        readLine_append hNo []]
      exact Nat.le_antisymm hFits hLt
    · have hShort :
          maxIpcLineBytes + 1 ≤ (utf8 text).length := by
        rw [List.length_append] at hFits
        exact Nat.le_of_not_lt fun hLess => hFits hLess
      rw [List.take_append_of_le_length hShort,
        readLine_of_no_newline fun hMem =>
          hNo (List.mem_of_mem_take hMem)]
      exact List.length_take_of_le hShort
  unfold readLimitedLine
  simp only
  split
  · exact ⟨_, rfl⟩
  · have hOver :
        maxIpcLineBytes <
          (readLine
            ((utf8 (text ++ "\n")).take
              (maxIpcLineBytes + 1))).1.length := by
      rw [hLine]
      exact Nat.lt_succ_self _
    rw [if_pos (Or.inl hOver)]
    exact ⟨_, rfl⟩

variable {Value : Type}
variable {codecs : IpcCodecs Value}

/- What the server does with a request that fits. -/
theorem handleStream_of_le
    (hLaws : codecs.Lawful)
    (snaps : JsonCodec Snapshot)
    (paths : EnginePaths)
    (now later : DateTime)
    (token expectedToken : String)
    (engine : Engine)
    (inner : IpcRequest)
    (hLe :
      (sent codecs.request (.auth token inner)).length ≤
        maxIpcLineBytes) :
    handleStream codecs snaps paths now later expectedToken
        engine (sent codecs.request (.auth token inner)) =
      if token = expectedToken then
        ((handleRequest codecs snaps paths now later engine
            inner).1,
          sent codecs.response
            (respond
              (handleRequest codecs snaps paths now later
                engine inner).2))
      else
        (⟨engine, false⟩,
          sent codecs.response
            (.error "invalid IPC token")) := by
  have hRequest := hLaws.request (.auth token inner)
  unfold handleStream
  rw [sent, readLimitedLine_of_le hRequest.noNewline hLe]
  simp only [hRequest.decodes]
  have hSame :
      secureEq (utf8 token) (utf8 expectedToken) = true ↔
        token = expectedToken := by
    rw [secureEq_iff]
    constructor
    · exact fun hBytes => utf8_injective hBytes
    · exact congrArg utf8
  simp only [hSame]

/- An answer is received if it fits, and only then. -/
theorem receive_iff
    (hLaws : codecs.Lawful)
    (reply response : IpcResponse Value) :
    (match
        readLimitedLine (sent codecs.response reply) with
      | .error e => .error e
      | .ok line =>
          match codecs.response.fromText line with
          | .error e => .error (.logSerde e)
          | .ok r => .ok r) =
        (.ok response :
          Except KronError (IpcResponse Value)) ↔
      (sent codecs.response reply).length ≤
          maxIpcLineBytes ∧
        response = reply := by
  have hReply := hLaws.response reply
  by_cases hLe :
      (sent codecs.response reply).length ≤ maxIpcLineBytes
  · rw [sent, readLimitedLine_of_le hReply.noNewline hLe]
    simp only [hReply.decodes, Except.ok.injEq]
    constructor
    · exact fun hEq => ⟨hLe, hEq.symm⟩
    · exact fun h => h.2.symm
  · rcases readLimitedLine_of_lt hReply.noNewline
        (Nat.lt_of_not_le hLe) with
      ⟨e, hError⟩
    rw [sent, hError]
    constructor
    · exact nofun
    · exact fun h => (hLe h.1).elim

/-
  A request is carried out when its line fits and its token
  is right, and its answer is received when that fits, too.
-/
theorem request_exact
    {Value : Type}
    (codecs : IpcCodecs Value)
    (snaps : JsonCodec Snapshot)
    (paths : EnginePaths)
    (now later : DateTime)
    (hLaws : codecs.Lawful)
    (token expectedToken : String)
    (engine : Engine)
    (inner : IpcRequest) :
    let line := sent codecs.request (.auth token inner)
    let handled :=
      handleRequest codecs snaps paths now later engine inner
    let outcome :=
      request codecs snaps paths now later token
        expectedToken engine inner
    (outcome.1 =
        if line.length ≤ maxIpcLineBytes ∧
            token = expectedToken then
          handled.1
        else
          ⟨engine, false⟩) ∧
      ∀ response,
        outcome.2 = .ok response ↔
          line.length ≤ maxIpcLineBytes ∧
            (sent codecs.response response).length ≤
                maxIpcLineBytes ∧
              response =
                if token = expectedToken then
                  respond handled.2
                else
                  .error "invalid IPC token" := by
  intro line handled outcome
  by_cases hLe : line.length ≤ maxIpcLineBytes
  · have hServed :=
      handleStream_of_le hLaws snaps paths now later token
        expectedToken engine inner hLe
    simp only [outcome, request]
    rw [hServed]
    by_cases hToken : token = expectedToken
    · rw [if_pos hToken, if_pos ⟨hLe, hToken⟩]
      refine ⟨rfl, fun response => ?_⟩
      rw [receive_iff hLaws, if_pos hToken]
      constructor
      · rintro ⟨hReply, rfl⟩
        exact ⟨hLe, hReply, rfl⟩
      · rintro ⟨_, hReply, rfl⟩
        exact ⟨hReply, rfl⟩
    · rw [if_neg hToken, if_neg fun h => hToken h.2]
      refine ⟨rfl, fun response => ?_⟩
      rw [receive_iff hLaws, if_neg hToken]
      constructor
      · rintro ⟨hReply, rfl⟩
        exact ⟨hLe, hReply, rfl⟩
      · rintro ⟨_, hReply, rfl⟩
        exact ⟨hReply, rfl⟩
  · have hRequest := hLaws.request (.auth token inner)
    rcases readLimitedLine_of_lt hRequest.noNewline
        (Nat.lt_of_not_le hLe) with
      ⟨e, hError⟩
    have hServed :
        handleStream codecs snaps paths now later
            expectedToken engine
            (sent codecs.request (.auth token inner)) =
          (⟨engine, false⟩, []) := by
      unfold handleStream
      rw [sent, hError]
    simp only [outcome, request]
    rw [hServed, if_neg fun h => hLe h.1]
    refine ⟨rfl, fun response => ?_⟩
    constructor
    · exact nofun
    · exact fun h => (hLe h.1).elim

/- Values, as far as the history of a timer needs them. -/
inductive PlainValue where
| text (value : String)
| entry (value : LogEntry)
| nil
| cons (head tail : PlainValue)
deriving DecidableEq

deriving instance Countable for PlainValue
deriving instance Countable for IpcRequest
deriving instance Countable for IpcResponse

namespace PlainValue

def ofList : List PlainValue → PlainValue
| [] => .nil
| v :: values => .cons v (ofList values)

def items : PlainValue → Except String (List PlainValue)
| .nil => .ok []
| .cons head tail => (items tail).map (head :: ·)
| _ => .error "invalid type, expected a sequence"

theorem items_ofList
    (values : List PlainValue) :
    (ofList values).items = .ok values := by
  induction values with
  | nil => rfl
  | cons v values ih =>
      rw [ofList, items, ih]
      rfl

end PlainValue

/- The lines of a request for a history, and its answer. -/
def requestRows : List (IpcRequest × String) :=
  [(.auth "secret" (.history "a" (some 1)),
    "\"cmd\":\"auth\",\"token\":\"secret\"," ++
      "\"inner\":\x7b\"cmd\":\"history\"," ++
      "\"name\":\"a\",\"limit\":1\x7d")]

def responseRows : List (IpcResponse PlainValue × String) :=
  [(.ok .nil, "\"status\":\"ok\",\"data\":[]")]

theorem requestRows_bytes :
    (∀ bs ∈ objectBytes requestRows,
        35 ∉ bs ∧ newline ∉ bs ∧
          bs.length < maxIpcLineBytes) ∧
      (objectBytes requestRows).Pairwise SuffixFree := by
  simp only [objectBytes, requestRows, List.map_cons,
    List.map_nil, List.forall_mem_cons,
    List.pairwise_cons]
  unfold braces
  simp only [utf8_append]
  decide +kernel

theorem responseRows_bytes :
    (∀ bs ∈ objectBytes responseRows,
        35 ∉ bs ∧ newline ∉ bs ∧
          bs.length < maxIpcLineBytes) ∧
      (objectBytes responseRows).Pairwise SuffixFree := by
  simp only [objectBytes, responseRows, List.map_cons,
    List.map_nil, List.forall_mem_cons,
    List.pairwise_cons]
  unfold braces
  simp only [utf8_append]
  decide +kernel

/- A codec of lines that skips what JSON allows at the end. -/
theorem tableCodec_sendsLine
    {α : Type}
    [Countable α]
    [DecidableEq α]
    {rows : List (α × String)}
    (hRows :
      (∀ bs ∈ objectBytes rows,
          35 ∉ bs ∧ newline ∉ bs ∧
            bs.length < maxIpcLineBytes) ∧
        (objectBytes rows).Pairwise SuffixFree)
    (a : α) :
    SendsLine (tableCodec (objectTable rows)) a := by
  have hTable : TableOk (objectTable rows) :=
    tableOk_of_bytes (fun bs hbs => (hRows.1 bs hbs).1)
      hRows.2
  have hWrites :
      (tableCodec (objectTable rows)).WritesLine a := by
    apply tableCodec_writesLine hTable
    intro row hRow
    rcases List.mem_map.mp hRow with ⟨r, hr, rfl⟩
    exact
      (hRows.1 _ (List.mem_map.mpr ⟨r, hr, rfl⟩)).2.1
  refine ⟨?_, ?_⟩
  · rw [← newline_mem_utf8_iff]
    exact hWrites.noNewline
  · apply tableCodec_fromText_of_trim hTable
    rw [trim_append_right_of_isBlank (by decide)]
    simp only [tableCodec]
    rw [trim_tableText hTable, String.toList_ofList]

/- Messages of the table are short. -/
theorem length_sent_of_row
    {α : Type}
    [Countable α]
    [DecidableEq α]
    {a : α}
    {members : String}
    (hShort :
      (utf8 (braces members)).length < maxIpcLineBytes) :
    (sent (tableCodec (objectTable [(a, members)]))
        a).length ≤ maxIpcLineBytes := by
  have hChars :
      tableChars (objectTable [(a, members)]) a =
        (braces members).toList := by
    simp [tableChars, objectTable]
  unfold sent
  simp only [tableCodec, hChars, String.ofList_toList]
  rw [utf8_line, List.length_append]
  exact hShort

noncomputable def sampleCodecs : IpcCodecs PlainValue where
  request := tableCodec (objectTable requestRows)
  response := tableCodec (objectTable responseRows)
  log := createdCodec
  summary := fun _ => .text "summary"
  summaries := fun _ => .text "summaries"
  entry := .entry
  array := PlainValue.ofList
  asArray := PlainValue.items
  shutdownRequested := .text "requested"
  compacted := .text "compacted"
  report := fun _ _ _ _ => .text "report"

theorem sampleCodecs_lawful :
    sampleCodecs.Lawful where
  request := tableCodec_sendsLine requestRows_bytes
  response := tableCodec_sendsLine responseRows_bytes
  array := PlainValue.items_ofList

/- The history of an engine that has none. -/
theorem request_exact_history :
    (request sampleCodecs snapshotCodec
        ⟨"/data", "/data/kron.lock"⟩ 0 0 "secret" "secret"
        emptyEngine (.history "a" (some 1))).2 =
      .ok (.ok .nil) := by
  apply
    ((request_exact sampleCodecs snapshotCodec
      ⟨"/data", "/data/kron.lock"⟩ 0 0 sampleCodecs_lawful
      "secret" "secret" emptyEngine
      (.history "a" (some 1))).2 _).mpr
  refine ⟨?_, ?_, rfl⟩
  · exact
      length_sent_of_row
        (requestRows_bytes.1 _ List.mem_cons_self).2.2
  · exact
      length_sent_of_row
        (responseRows_bytes.1 _ List.mem_cons_self).2.2

/-
  `kron job history` prints the same items whether an engine
  answers or not, and whether its answer is received or not.
-/
theorem job_history_agrees
    {Value : Type}
    (cal : Calendar)
    (codecs : IpcCodecs Value)
    (snaps : JsonCodec Snapshot)
    (hLaws : codecs.Lawful)
    (hWrites : ∀ e, codecs.log.WritesLine e)
    (hSnaps : snaps.LosslessPretty)
    (labels : List WorldLabel)
    (hSucceeds : ∀ label ∈ labels, label.Succeeds)
    (world : World)
    (hRun :
      Machine.run (World.step cal codecs.log snaps)
        World.init labels = some world)
    (dataDir name : String)
    (limit : Option Nat) :
    ∃ entries : List LogEntry,
      entries.map LogEntry.event =
          lastOf limit
            (world.recent.filter fun event =>
              event.timerId = name) ∧
        (∀ e,
          jobHistory codecs dataDir world.dir (.error e) name
              limit =
            .ok (entries.map codecs.entry)) ∧
        ∀ (engine : Engine) (paths : EnginePaths)
          (now later : DateTime)
          (token expectedToken : String),
          jobHistory codecs dataDir world.dir
              (request codecs snaps paths now later token
                expectedToken (engine.on world.dir)
                (.history name limit)).2
              name limit =
            .ok (entries.map codecs.entry) := by
  have hSound : world.Sound codecs.log snaps :=
    World.Sound.init.run hWrites hSnaps hSucceeds hRun
  rcases hSound.stored.history hWrites name limit with
    ⟨entries, hHistory, hEvents⟩
  have hOffline :
      ∀ answer,
        (∀ data, answer ≠ .ok (.ok data)) →
          jobHistory codecs dataDir world.dir answer name
              limit =
            .ok (entries.map codecs.entry) := by
    intro answer hNone
    unfold jobHistory
    split
    · rename_i data
      exact (hNone data rfl).elim
    · rw [hHistory dataDir]
  refine ⟨entries, hEvents, fun e => hOffline _ nofun, ?_⟩
  intro engine paths now later token expectedToken
  cases hAnswer :
      (request codecs snaps paths now later token
        expectedToken (engine.on world.dir)
        (.history name limit)).2 with
  | error e => exact hOffline _ nofun
  | ok response =>
      cases response with
      | error message => exact hOffline _ nofun
      | ok data =>
          have hExact :=
            ((request_exact codecs snaps paths now later
              hLaws token expectedToken
              (engine.on world.dir)
              (.history name limit)).2 _).mp hAnswer
          have hReply := hExact.2.2
          split at hReply
          · have hServed :
                (engine.on world.dir).inner.dir =
                  world.dir := rfl
            simp only [handleRequest, hServed,
              hHistory paths.dataDir, Except.map,
              respond] at hReply
            cases hReply
            exact hLaws.array _
          · cases hReply

/- A timer was registered, and the token is wrong. -/
theorem job_history_agrees_registered :
    ∃ (world : World) (entries : List LogEntry),
      Machine.run
          (World.step utcCalendar createdCodec snapshotCodec)
          World.init registeredWorld = some world ∧
        entries.map LogEntry.event =
          [.timerCreated (everyMinute "a")] ∧
        jobHistory sampleCodecs "/data" world.dir
            (request sampleCodecs snapshotCodec
              ⟨"/data", "/data/kron.lock"⟩ 0 0 "guess"
              "secret" (emptyEngine.on world.dir)
              (.history "a" (some 1))).2
            "a" (some 1) =
          .ok (entries.map .entry) := by
  rcases registeredWorld_run with ⟨world, hRun, hRecent, _⟩
  rcases job_history_agrees utcCalendar sampleCodecs
      snapshotCodec sampleCodecs_lawful
      createdCodec_writesLine
      (tableCodec_losslessPretty snapshotRows_ok)
      registeredWorld registeredWorld_succeeds world hRun
      "/data" "a" (some 1) with
    ⟨entries, hEvents, _, hServed⟩
  refine ⟨world, entries, hRun, ?_, ?_⟩
  · rw [hEvents, hRecent]
    decide
  · exact
      hServed emptyEngine ⟨"/data", "/data/kron.lock"⟩ 0 0
        "guess" "secret"

end Ipc

end Kron
