import Kron.Lib.Machine
import Kron.Server.Answers
import Kron.Server.AuditReaders

/-
  The audit log as a transcript of the answers.

  A server answers requests, is started again, and fails to
  write records. Where a failed write leaves nothing of its
  record behind, the log tells of the answers that were sent,
  one record for each and in their order, whatever became of
  the requests; what was not recorded was not answered.

  Key definitions include:
    * `Kron.Outcome`
    * `Kron.outcomeOf`
    * `Kron.Audit.RecordIo`
    * `Kron.Audit.AuditServer.visit`
    * `Kron.Audit.Answered.entry?`
    * `Kron.Audit.Transcript`

  Key theorems include:
    * `Kron.authed_eq`
    * `Kron.Audit.entry_of_outcome`
    * `Kron.Audit.reads_of_clean`
    * `Kron.Audit.log_is_transcript`
-/

------------------------------------------------------------
-- What An Answer Records
------------------------------------------------------------

namespace Kron

open Cursor

/- What `authed` audits, and the response it goes with. -/
structure Outcome where
  auth : Option AuthContext
  outcome : String
  reason : Option String
  response : Response

/- The outcome of a request; `none` is a panic. -/
def outcomeOf
    (format : JsonFormat)
    (auth : Except String AuthContext)
    (requiredRole : AuthRole)
    (handler : AuthContext → Checked HandlerError Json) :
    Option Outcome :=
  match auth with
  | .error reason =>
      some
        { auth := none
          outcome := "unauthorized"
          reason := some reason
          response :=
            { status := 401
              body :=
                .object [("error", .string "unauthorized")] } }
  | .ok ctx =>
      if ctx.role.allows requiredRole then
        match (handler ctx).run with
        | none => none
        | some (.ok value) =>
            some
              { auth := some ctx
                outcome := "ok"
                reason := none
                response :=
                  { status := 200
                    body := value } }
        | some (.error err) =>
            let response :=
              errorResponse format
                (err.toKronError format).toText
            some
              { auth := some ctx
                outcome := "error"
                reason := response.body.errorName
                response := response }
      else
        some
          { auth := some ctx
            outcome := "forbidden"
            reason := some requiredRole.asStr
            response :=
              { status := 403
                body :=
                  .object
                    [("error", .string "forbidden"),
                      ("required_role",
                        .string requiredRole.asStr)] } }

/- A request is audited once, as its outcome says. -/
theorem authed_eq
    (format : JsonFormat)
    (auth : Except String AuthContext)
    (audit : AuditWriter)
    (requiredRole : AuthRole)
    (action : String)
    (handler : AuthContext → Checked HandlerError Json) :
    authed format auth audit requiredRole action handler =
      (outcomeOf format auth requiredRole handler).map
        fun outcome =>
          audited
            (audit outcome.auth action outcome.outcome
              outcome.response.status outcome.reason)
            outcome.response := by
  unfold authed outcomeOf
  cases auth with
  | error reason => rfl
  | ok ctx =>
      simp only
      split
      · cases (handler ctx).run with
        | none => rfl
        | some result =>
            cases result with
            | error err => rfl
            | ok value => rfl
      · rfl

end Kron

------------------------------------------------------------
-- The Server And Its Log
------------------------------------------------------------

namespace Kron

namespace Audit

open Text
open AppendOnlyLog

/-
  How the write of a record ends. A write that fails leaves
  some bytes of the record behind; all of them, where only
  the sync fails.
-/
inductive RecordIo where
| written
| notOpened (error : KronError)
| cutShort (count : Nat) (error : KronError)

namespace RecordIo

/- What `audit` returns. -/
def result : RecordIo → Except KronError Unit
| .written => .ok ()
| .notOpened error => .error error
| .cutShort _ error => .error error

/- Whether the record is written, or nothing of it. -/
def isWhole : RecordIo → Bool
| .written => true
| .notOpened _ => true
| .cutShort count _ => count == 0

end RecordIo

/- A request that was let go; a panic sends no response. -/
structure Answered where
  auth : Except String AuthContext
  request : Request
  response : Option Response

/-
  The audit log of a server, the state that its process has
  in memory, and the requests that it is done with, which it
  does not read.
-/
structure AuditServer where
  file : Option Bytes
  state : AuditState
  answers : List Answered

/- A request up to its response, or a start. -/
inductive Visit where
| answer (auth : Except String AuthContext)
    (request : Request) (io : HandlerIo) (now : DateTime)
    (write : RecordIo)
| start

def Visit.isWhole : Visit → Bool
| .answer _ _ _ _ write => write.isWhole
| .start => true

/- The call of `audit` that an outcome makes. -/
def callOf
    (outcome : Outcome)
    (action : String)
    (now : DateTime) : AuditCall where
  auth := outcome.auth
  action := action
  outcome := outcome.outcome
  status := outcome.response.status
  reason := outcome.reason
  now := now

namespace AuditServer

variable (digest : AuditContent → String)
variable (codec : JsonCodec AuditRecord)
variable (format : JsonFormat)
variable (cal : Calendar)
variable (info : ServerInfo)
variable (nodeName : String)

/- A server that has not been started, and its log. -/
def stopped
    (file : Option Bytes) : AuditServer where
  file := file
  state := initialState
  answers := []

/- `audit`; a write that fails leaves the state. -/
def record
    (server : AuditServer)
    (call : AuditCall) : RecordIo → AuditServer
| .written =>
    let written :=
      audit digest codec nodeName
        (server.state, openFile server.file) call
    { server with
      file := some written.2
      state := written.1 }
| .notOpened _ => server
| .cutShort count _ =>
    let record := recordOf digest nodeName server.state call
    { server with
      file :=
        some
          (openFile server.file ++
            (encodeRecord codec record).take count) }

/- A request is recorded, then answered. -/
def visit
    (server : AuditServer) : Visit → Option AuditServer
| .answer auth request io now write =>
    let handler := fun ctx => handle cal info io ctx request
    let recorded :=
      match outcomeOf format auth request.requiredRole
          handler with
      | none => server
      | some outcome =>
          server.record digest codec nodeName
            (callOf outcome request.action now) write
    let response :=
      Kron.answer format cal info io auth
        (fun _ _ _ _ _ => write.result) request
    some
      { recorded with
        answers := server.answers ++
          [⟨auth, request, response⟩] }
| .start =>
    match readLastState digest codec server.file with
    | .error _ => none
    | .ok state => some { server with state := state }

end AuditServer

end Audit

end Kron

------------------------------------------------------------
-- What Was Sent
------------------------------------------------------------

namespace Kron

open Cursor

/- What a record tells about a request. -/
structure AuditEntry where
  action : String
  outcome : String
  status : UInt16
  actor : String
  role : String
  tenantId : Option String
  reason : Option String
deriving DecidableEq, Repr

def AuditRecord.entry
    (record : AuditRecord) : AuditEntry where
  action := record.action
  outcome := record.outcome
  status := record.status
  actor := record.actor
  role := record.role
  tenantId := record.tenantId
  reason := record.reason

namespace Audit

/- The name of what became of a request. -/
def outcomeName
    (status : UInt16) : String :=
  if status = 200 then
    "ok"
  else if status = 401 then
    "unauthorized"
  else if status = 403 then
    "forbidden"
  else
    "error"

/- Why a request was not carried out. -/
def refusalOf
    (auth : Except String AuthContext)
    (request : Request)
    (response : Response) : Option String :=
  match auth with
  | .error reason => some reason
  | .ok _ =>
      if response.status = 200 then
        none
      else if response.status = 403 then
        some request.requiredRole.asStr
      else
        response.body.errorName

/-
  What a response tells about a request. The status 500 says
  that the request was not recorded.
-/
def Answered.entry?
    (answered : Answered) : Option AuditEntry :=
  answered.response.bind fun response =>
    if response.status = 500 then
      none
    else
      let ctx? := answered.auth.toOption
      some
        { action := answered.request.action
          outcome := outcomeName response.status
          status := response.status
          actor :=
            (ctx?.map AuthContext.actor).getD "anonymous"
          role :=
            (ctx?.map fun ctx => ctx.role.asStr).getD "none"
          tenantId := ctx?.bind AuthContext.tenantId
          reason :=
            refusalOf answered.auth answered.request
              response }

variable {format : JsonFormat}
variable {auth : Except String AuthContext}
variable {request : Request}
variable {handler : AuthContext → Checked HandlerError Json}
variable {outcome : Outcome}

theorem errorResponse_status
    (text : String) :
    (errorResponse format text).status = 409 ∨
      (errorResponse format text).status = 400 := by
  unfold errorResponse
  simp only
  split
  · exact Or.inl rfl
  · exact Or.inr rfl

/- A record says what the response of its outcome says. -/
theorem entry_of_outcome
    (digest : AuditContent → String)
    (nodeName : String)
    (state : AuditState)
    (now : DateTime)
    (hOutcome :
      outcomeOf format auth request.requiredRole handler =
        some outcome) :
    Answered.entry?
        ⟨auth, request, some outcome.response⟩ =
      some
        (recordOf digest nodeName state
          (callOf outcome request.action now)).entry := by
  unfold outcomeOf at hOutcome
  cases auth with
  | error reason =>
      cases hOutcome
      rfl
  | ok ctx =>
      simp only at hOutcome
      split at hOutcome
      · split at hOutcome
        · cases hOutcome
        · cases hOutcome
          rfl
        · rename_i err _
          cases hOutcome
          have hStatus :=
            @errorResponse_status format
              (err.toKronError format).toText
          unfold Answered.entry? refusalOf outcomeName
            AuditRecord.entry recordOf callOf
          rcases hStatus with hConflict | hBad
          · simp [hConflict, Except.toOption]
          · simp [hBad, Except.toOption]
      · cases hOutcome
        rfl

end Audit

end Kron

------------------------------------------------------------
-- Reading The Log Back
------------------------------------------------------------

namespace Kron

namespace Audit

open Text
open AppendOnlyLog
open JsonCodec

variable {digest : AuditContent → String}
variable {codec : JsonCodec AuditRecord}
variable {bytes : Bytes}
variable {strings : List String}
variable {recs : List AuditRecord}

/- Records that follow a clean end are parsed after the rest. -/
theorem parses_of_clean
    (hWrites : ∀ r, codec.WritesLine r)
    (hSpace : codec.SkipsSpace)
    (hRead : readStrings bytes = .ok strings)
    (hDecode :
      codec.decodeAll (textLines strings) = some recs)
    (hClean : EndsClean codec bytes)
    (new : List AuditRecord) :
    ∃ strings',
      readStrings
            (bytes ++ new.flatMap (encodeRecord codec)) =
          .ok strings' ∧
        codec.Parses (textLines strings') (recs ++ new) := by
  have hParses : codec.Parses (textLines strings) recs := by
    rw [parses_iff_last hDecode]
    intro t hLast
    apply hClean.2 t
    rw [lastText_of_read hRead, hLast]
  cases new with
  | nil =>
      refine ⟨strings, ?_, ?_⟩
      · simpa using hRead
      · simpa using hParses
  | cons record records =>
      rcases exists_split hRead with
        ⟨closed, s, hSplit, hTexts⟩
      rcases textLines_of_split record records hWrites
          hSplit with ⟨strings', hRead', hTexts'⟩
      rcases hClean.1 with ⟨s', hLast, hBlank⟩
      rw [hSplit.last, fromUtf8_utf8] at hLast
      cases hLast
      rw [if_pos (isBlank_of_isJsonBlank hBlank),
        List.append_nil] at hTexts
      refine ⟨strings', hRead', ?_⟩
      rw [hTexts', ← hTexts]
      exact
        List.rel_append hParses
          (.cons (hSpace s record hBlank)
            (parses_toText hWrites records))

/- What the readers find in a file of linked records. -/
theorem reads_of_parses
    (hRead : readStrings bytes = .ok strings)
    (hParses : codec.Parses (textLines strings) recs)
    (hLinked : Linked digest "" 1 recs) :
    verify digest codec (some bytes) =
        .ok (UInt64.ofNat recs.length) ∧
      readLastState digest codec (some bytes) =
          .ok (stateAfter initialState recs) ∧
        readRecords codec (some bytes) = .ok recs := by
  have hDecode := decodeAll_of_parses hParses
  have hVerify :
      verify digest codec (some bytes) =
        .ok (UInt64.ofNat recs.length) :=
    (verify_eq_ok_iff _ _).mpr
      ⟨strings, recs, hRead, hDecode, hLinked, rfl⟩
  exact
    ⟨hVerify, readLastState_of_verify hVerify hRead hDecode,
      (readRecords_eq_ok_iff hRead).mpr hParses⟩

/- The readers find the records of a file, with any others. -/
def ReadsBack
    (digest : AuditContent → String)
    (codec : JsonCodec AuditRecord)
    (bytes : Bytes)
    (old : List AuditRecord) : Prop :=
  ∀ new,
    Linked digest "" 1 (old ++ new) →
      let file :=
        some (bytes ++ new.flatMap (encodeRecord codec))
      verify digest codec file =
          .ok (UInt64.ofNat (old ++ new).length) ∧
        readLastState digest codec file =
            .ok (stateAfter initialState (old ++ new)) ∧
          readRecords codec file = .ok (old ++ new)

/- A log that verifies and ends cleanly may be gone on with. -/
theorem reads_of_clean
    {n : UInt64}
    (hWrites : ∀ r, codec.WritesLine r)
    (hSpace : codec.SkipsSpace)
    (hVerify : verify digest codec (some bytes) = .ok n)
    (hClean : EndsClean codec bytes) :
    ∃ old,
      Linked digest "" 1 old ∧
        n = UInt64.ofNat old.length ∧
          ReadsBack digest codec bytes old := by
  rcases (verify_eq_ok_iff bytes n).mp hVerify with
    ⟨strings, old, hRead, hDecode, hLinked, hn⟩
  refine ⟨old, hLinked, hn, ?_⟩
  intro new hNew
  rcases parses_of_clean hWrites hSpace hRead hDecode hClean
      new with ⟨strings', hRead', hParses⟩
  exact reads_of_parses hRead' hParses hNew

end Audit

end Kron

------------------------------------------------------------
-- The Transcript
------------------------------------------------------------

namespace Kron

namespace Audit

open Cursor
open Text
open AppendOnlyLog

/-
  What a server has added to the log that it found: records
  that continue it, and tell of what was answered since.
-/
structure Transcript
    (digest : AuditContent → String)
    (codec : JsonCodec AuditRecord)
    (bytes : Bytes)
    (old : List AuditRecord)
    (server : AuditServer)
    (new : List AuditRecord) : Prop where
  file :
    openFile server.file =
      bytes ++ new.flatMap (encodeRecord codec)
  linked : Linked digest "" 1 (old ++ new)
  state :
    server.state = stateAfter initialState (old ++ new)
  answers :
    new.map AuditRecord.entry =
      server.answers.filterMap Answered.entry?

variable {digest : AuditContent → String}
variable {codec : JsonCodec AuditRecord}
variable {format : JsonFormat}
variable {cal : Calendar}
variable {info : ServerInfo}
variable {nodeName : String}
variable {bytes : Bytes}
variable {old new : List AuditRecord}
variable {server server' : AuditServer}

theorem stateAfter_concat
    (state : AuditState)
    (recs : List AuditRecord)
    (record : AuditRecord) :
    stateAfter state (recs ++ [record]) =
      { seq := record.seq
        hash := record.hash } := by
  unfold stateAfter
  rw [List.foldl_append]
  rfl

namespace Transcript

/- Nothing is recorded of a request that tells nothing. -/
theorem silent
    {answered : Answered}
    (hTranscript :
      Transcript digest codec bytes old server new)
    (hFile : openFile server'.file = openFile server.file)
    (hState : server'.state = server.state)
    (hAnswers :
      server'.answers = server.answers ++ [answered])
    (hEntry : answered.entry? = none) :
    Transcript digest codec bytes old server' new where
  file := by rw [hFile, hTranscript.file]
  linked := hTranscript.linked
  state := by rw [hState, hTranscript.state]
  answers := by
    rw [hAnswers, List.filterMap_append,
      ← hTranscript.answers]
    simp [hEntry]

/- A record that is written tells of its request. -/
theorem written
    {call : AuditCall}
    {answered : Answered}
    (hTranscript :
      Transcript digest codec bytes old server new)
    (hEntry :
      answered.entry? =
        some
          (recordOf digest nodeName server.state
            call).entry) :
    Transcript digest codec bytes old
      { server.record digest codec nodeName call .written with
        answers := server.answers ++ [answered] }
      (new ++
        [recordOf digest nodeName server.state call]) := by
  have hNext :
      Linked digest server.state.hash (server.state.seq + 1)
        [recordOf digest nodeName server.state call] :=
    linked_recordsOf nodeName server.state [call]
  refine ⟨?_, ?_, ?_, ?_⟩
  · show openFile server.file ++ encodeRecord codec _ = _
    rw [hTranscript.file, List.flatMap_append,
      List.append_assoc]
    simp
  · rw [← List.append_assoc]
    refine
      (linked_append initialState (old ++ new) _).mpr
        ⟨hTranscript.linked, ?_⟩
    rw [← hTranscript.state]
    exact hNext
  · rw [← List.append_assoc, stateAfter_concat]
    rfl
  · rw [List.map_append, hTranscript.answers,
      List.filterMap_append]
    simp [hEntry]

/- A process starts with the state after all records. -/
theorem exists_start
    (hReads : ReadsBack digest codec bytes old)
    (hFile :
      openFile server.file =
        bytes ++ new.flatMap (encodeRecord codec))
    (hLinked : Linked digest "" 1 (old ++ new))
    (hAnswers :
      new.map AuditRecord.entry =
        server.answers.filterMap Answered.entry?) :
    ∃ started,
      server.visit digest codec format cal info nodeName
          .start = some started ∧
        Transcript digest codec bytes old started new := by
  have hState :
      readLastState digest codec server.file =
        .ok (stateAfter initialState (old ++ new)) := by
    rw [← (verify_openFile server.file).2, hFile]
    exact (hReads new hLinked).2.1
  refine
    ⟨{ server with
        state := stateAfter initialState (old ++ new) },
      ?_, hFile, hLinked, rfl, hAnswers⟩
  simp only [AuditServer.visit, hState]

end Transcript

/-
  A request is answered and recorded, or sent the status 500,
  or not answered at all.
-/
theorem exists_answer
    (hTranscript :
      Transcript digest codec bytes old server new)
    (auth : Except String AuthContext)
    (request : Request)
    (io : HandlerIo)
    (now : DateTime)
    {write : RecordIo}
    (hWhole : write.isWhole = true) :
    ∃ answered new',
      server.visit digest codec format cal info nodeName
          (.answer auth request io now write) =
        some answered ∧
        Transcript digest codec bytes old answered new' := by
  have hAnswer :=
    authed_eq format auth (fun _ _ _ _ _ => write.result)
      request.requiredRole request.action
      fun ctx => handle cal info io ctx request
  simp only [AuditServer.visit]
  unfold Kron.answer
  rw [hAnswer]
  cases hOutcome :
      outcomeOf format auth request.requiredRole
        fun ctx => handle cal info io ctx request with
  | none =>
      exact
        ⟨_, new, rfl,
          hTranscript.silent rfl rfl rfl rfl⟩
  | some outcome =>
      cases write with
      | written =>
          refine ⟨_, _, rfl, hTranscript.written ?_⟩
          exact
            entry_of_outcome digest nodeName server.state now
              hOutcome
      | notOpened error =>
          exact
            ⟨_, new, rfl,
              hTranscript.silent rfl rfl rfl rfl⟩
      | cutShort count error =>
          have hNone : count = 0 := beq_iff_eq.mp hWhole
          subst hNone
          refine
            ⟨_, new, rfl,
              hTranscript.silent ?_ rfl rfl rfl⟩
          exact List.append_nil _

/-
  The log of a server that starts from a log that verifies
  and ends cleanly, where a write that fails leaves nothing
  behind. After any requests and starts, the log verifies,
  and what was added tells, in order, of the responses that
  were sent, but for those that say that nothing could be
  recorded; a start never fails.
-/
theorem log_is_transcript
    (digest : AuditContent → String)
    (codec : JsonCodec AuditRecord)
    (hWrites : ∀ r, codec.WritesLine r)
    (hSpace : codec.SkipsSpace)
    (format : JsonFormat)
    (cal : Calendar)
    (info : ServerInfo)
    (nodeName : String)
    (file : Option Bytes)
    (n : UInt64)
    (hVerify : verify digest codec file = .ok n)
    (hClean : EndsClean codec (openFile file))
    (visits : List Visit)
    (hWhole : ∀ visit ∈ visits, visit.isWhole = true) :
    ∃ server old new,
      Machine.run
          (AuditServer.visit digest codec format cal info
            nodeName)
          (AuditServer.stopped file) (.start :: visits) =
        some server ∧
      readRecords codec file = .ok old ∧
      readRecords codec server.file = .ok (old ++ new) ∧
      verify digest codec server.file =
        .ok (n + UInt64.ofNat new.length) ∧
      new.map AuditRecord.entry =
        server.answers.filterMap Answered.entry? := by
  rw [← (verify_openFile file).1] at hVerify
  rcases reads_of_clean hWrites hSpace hVerify hClean with
    ⟨old, hOld, hn, hReads⟩
  have hEmpty : Linked digest "" 1 (old ++ []) := by
    rwa [List.append_nil]
  have hFound :
      openFile (AuditServer.stopped file).file =
        openFile file ++ [].flatMap (encodeRecord codec) := by
    simp [AuditServer.stopped]
  have hBegin :
      ∃ started,
        (AuditServer.stopped file).visit digest codec format
            cal info nodeName .start = some started ∧
          Transcript digest codec (openFile file) old started
            [] :=
    Transcript.exists_start hReads hFound hEmpty rfl
  rcases hBegin with ⟨started, hStart, hFirst⟩
  have hRun :
      ∃ server,
        Machine.run
            (AuditServer.visit digest codec format cal info
              nodeName) started visits = some server ∧
          ∃ new,
            Transcript digest codec (openFile file) old
              server new := by
    refine
      Machine.exists_run
        (fun server =>
          ∃ new,
            Transcript digest codec (openFile file) old
              server new)
        ?_ ⟨[], hFirst⟩ hWhole
    rintro server visit ⟨new, hTranscript⟩ hVisit
    cases visit with
    | start =>
        rcases Transcript.exists_start hReads
            hTranscript.file hTranscript.linked
            hTranscript.answers with
          ⟨next, hNext, hAfter⟩
        exact ⟨next, hNext, new, hAfter⟩
    | answer auth request io now write =>
        rcases exists_answer hTranscript auth request io now
            hVisit with ⟨next, new', hNext, hAfter⟩
        exact ⟨next, hNext, new', hAfter⟩
  rcases hRun with ⟨server, hRun, new, hTranscript⟩
  have hRecords := (hReads [] hEmpty).2.2
  have hAfter := hReads new hTranscript.linked
  simp only [← hTranscript.file] at hAfter
  rw [(verify_openFile server.file).1,
    readers_openFile.2] at hAfter
  refine
    ⟨server, old, new, ?_, ?_, hAfter.2.2, ?_,
      hTranscript.answers⟩
  · rw [Machine.run_cons_of_step hStart, hRun]
  · simpa [readers_openFile.2] using hRecords
  · rw [hAfter.1, hn, List.length_append, UInt64.ofNat_add]

/- A worker that polls the leader, and finds nothing. -/
def idlePoll
    (write : RecordIo) : Visit :=
  .answer
    (.ok
      { actor := "worker"
        role := .worker
        tenantId := some "tenant-a" })
    (.pollWorker
      { workerId := "w1"
        tasks := ["digest"] })
    { firstCheck := ⟨true, some 1, .default⟩
      secondCheck := ⟨true, some 1, .default⟩
      raft := fun _ => .ok ()
      app := PersistedStateMachine.default.appState
      now := 0
      createdAt := 0
      applied := true
      rounds := []
      result := .null }
    1781085600 write

/- The second poll is not recorded, and not answered. -/
theorem log_is_transcript_polls :
    ∃ server old new,
      Machine.run
          (AuditServer.visit workerDigest workerCodec
            ⟨fun _ => none, fun _ => "null"⟩ utcCalendar
            ⟨1, "127.0.0.1:7474", 30⟩ "n1")
          (AuditServer.stopped none)
          [.start, idlePoll .written,
            idlePoll (.notOpened (.logIo "no space"))] =
        some server ∧
      (server.answers.map fun answered =>
        answered.response.map Response.status) =
          [some 200, some 500] ∧
      readRecords workerCodec none = .ok old ∧
      readRecords workerCodec server.file =
        .ok (old ++ new) ∧
      verify workerDigest workerCodec server.file =
        .ok (0 + UInt64.ofNat new.length) ∧
      new.map AuditRecord.entry =
        server.answers.filterMap Answered.entry? := by
  rcases log_is_transcript workerDigest workerCodec
      workerCodec_writesLine workerCodec_skipsSpace
      ⟨fun _ => none, fun _ => "null"⟩ utcCalendar
      ⟨1, "127.0.0.1:7474", 30⟩ "n1" none 0 rfl
      endsClean_nil
      [idlePoll .written,
        idlePoll (.notOpened (.logIo "no space"))]
      (by decide) with
    ⟨server, old, new, hRun, hOld, hNew, hVerify, hTells⟩
  have hStatuses :
      (Machine.run
          (AuditServer.visit workerDigest workerCodec
            ⟨fun _ => none, fun _ => "null"⟩ utcCalendar
            ⟨1, "127.0.0.1:7474", 30⟩ "n1")
          (AuditServer.stopped none)
          [.start, idlePoll .written,
            idlePoll (.notOpened (.logIo "no space"))]).map
        (fun server =>
          server.answers.map fun answered =>
            answered.response.map Response.status) =
        some [some 200, some 500] := by
    decide +kernel
  rw [hRun] at hStatuses
  exact
    ⟨server, old, new, hRun, Option.some.inj hStatuses, hOld,
      hNew, hVerify, hTells⟩

end Audit

end Kron
