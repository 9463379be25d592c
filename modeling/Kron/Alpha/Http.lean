import Kron.Lib.HttpText
import Kron.Alpha.Engine
import Kron.Server.Answers
import Kron.Server.Authentication
import Kron.Server.RaftStore

/-
  The HTTP interface of the quorum server, which reads its
  requests without a library.

  A request is read up to its empty line, and then as many
  bytes as its first readable content length says. It is
  routed when one of its headers carries the token. What a
  client sends is a byte string; a server that finds it too
  short, or not in UTF-8, closes the connection.

  Key definitions include:
    * `Kron.Alpha.Route`
    * `Kron.Alpha.routeHttp`
    * `Kron.Alpha.handleHttpStream`
    * `Kron.Alpha.writeJson`
    * `Kron.Alpha.replicateRequest`
    * `Kron.Alpha.serve`

  Key theorems include:
    * `Kron.Alpha.handleHttpStream_replicateRequest`
    * `Kron.Alpha.acknowledged_iff_applied`
    * `Kron.Alpha.reachable_iff_usable`
-/

------------------------------------------------------------
-- Routes
------------------------------------------------------------

namespace Kron

namespace Alpha

open Audit HttpText Text

/- What a request asks of the engine. -/
inductive Route where
| createTimer (request : CreateTimerRequest)
| listTimers
| statusTimer (name : String)
| historyTimer (name : String)
| registerWorker (request : WorkerRegisterRequest)
| heartbeatWorker (workerId : String)
| pollWorker (request : WorkerPollRequest)
| completeRun (runId : RunId) (request : RunCompleteRequest)
| failRun (runId : RunId) (request : RunFailRequest)
| clusterStatus
| join (request : JoinRequest)
| leave (request : LeaveRequest)
| raftApply (command : RaftCommand)
| shutdown
| notFound

/- How the bodies of requests are parsed. -/
structure HttpCodecs where
  value : JsonCodec Json
  createTimer : JsonCodec CreateTimerRequest
  register : JsonCodec WorkerRegisterRequest
  poll : JsonCodec WorkerPollRequest
  complete : JsonCodec RunCompleteRequest
  fail : JsonCodec RunFailRequest
  join : JsonCodec JoinRequest
  leave : JsonCodec LeaveRequest
  command : JsonCodec RaftCommand

variable (codecs : HttpCodecs)

/- A route whose body has to parse. -/
def parsed
    {α : Type}
    (codec : JsonCodec α)
    (body : String)
    (route : α → Route) : Except KronError Route :=
  match codec.fromText body with
  | .ok request => .ok (route request)
  | .error e => .error (.logSerde e)

def routeHttp
    (method path body : String) : Except KronError Route :=
  match method, segments path with
  | "POST", ["v1", "timers"] =>
      parsed codecs.createTimer body .createTimer
  | "GET", ["v1", "timers"] => .ok .listTimers
  | "GET", ["v1", "timers", name] => .ok (.statusTimer name)
  | "GET", ["v1", "timers", name, "history"] =>
      .ok (.historyTimer name)
  | "POST", ["v1", "workers", "register"] =>
      parsed codecs.register body .registerWorker
  | "POST", ["v1", "workers", "heartbeat"] =>
      parsed codecs.value body fun value =>
        .heartbeatWorker
          (((value.get "worker_id").bind Json.asStr).getD "")
  | "POST", ["v1", "workers", "poll"] =>
      parsed codecs.poll body .pollWorker
  | "POST", ["v1", "runs", runId, "succeed"] =>
      parsed codecs.complete body (.completeRun runId)
  | "POST", ["v1", "runs", runId, "fail"] =>
      parsed codecs.fail body (.failRun runId)
  | "GET", ["v1", "cluster", "status"] => .ok .clusterStatus
  | "POST", ["v1", "cluster", "join"] =>
      parsed codecs.join body .join
  | "POST", ["v1", "cluster", "leave"] =>
      parsed codecs.leave body .leave
  | "POST", ["v1", "raft", "apply"] =>
      parsed codecs.command body .raftApply
  | "POST", ["v1", "runtime", "shutdown"] => .ok .shutdown
  | _, _ => .ok .notFound

end Alpha

end Kron

------------------------------------------------------------
-- Requests
------------------------------------------------------------

namespace Kron

namespace Alpha

open Audit HttpText Text

variable (codecs : HttpCodecs)

/- The value of a header that has the given name. -/
def headerValue
    (name line : String) : Option String :=
  match splitOnce ':' line with
  | none => none
  | some (key, value) =>
      if eqIgnoreAsciiCase key name then
        some (trim value)
      else
        none

/- The first content length that can be read, or zero. -/
def contentLength
    (headers : List String) : Nat :=
  ((headers.findSome? fun line =>
    (headerValue "content-length" line).bind
      parseU64).map UInt64.toNat).getD 0

/- Whether some header carries the token. -/
def isAuthorized
    (token : String)
    (headers : List String) : Bool :=
  headers.any fun line =>
    (headerValue "authorization" line).any fun value =>
      secureEq (utf8 value) (utf8 ("Bearer " ++ token))

/- What a request comes to before the engine sees it. -/
inductive Handling where
| dropped
| refused (status : Nat) (error : String)
| routed (route : Route)

def maxBodyBytes : Nat :=
  1024 * 1024

/- A request whose head has been read. -/
def handleRequest
    (token method path : String)
    (headers : List String)
    (rest : Bytes) : Handling :=
  if maxBodyBytes < contentLength headers then
    .refused 413 "request body too large"
  else if rest.length < contentLength headers then
    .dropped
  else if isAuthorized token headers then
    match routeHttp codecs method path
        (lossy (rest.take (contentLength headers))) with
    | .ok route => .routed route
    | .error e => .refused 400 e.toText
  else
    .refused 401 "unauthorized"

/- `handle_http_stream` up to the engine. -/
def handleHttpStream
    (token : String)
    (input : Bytes) : Handling :=
  match readHead input with
  | none => .dropped
  | some (head, rest) =>
      let lines := head.map chomp
      match splitWhitespace (lines.head?.getD "") with
      | method :: path :: _ =>
          handleRequest codecs token method path lines.tail
            rest
      | _ => .refused 400 "bad request"

end Alpha

end Kron

------------------------------------------------------------
-- Answers And Replication
------------------------------------------------------------

namespace Kron

namespace Alpha

open Audit HttpText Text

variable (codecs : HttpCodecs)

def reason : Nat → String
| 200 => "OK"
| 400 => "Bad Request"
| 401 => "Unauthorized"
| 404 => "Not Found"
| _ => "OK"

/- The text of an answer. -/
def writeJson
    (status : Nat)
    (value : Json) : String :=
  let body := codecs.value.toText value
  "HTTP/1.1 " ++ toString status ++ " " ++ reason status ++
    "\r\nContent-Type: application/json" ++
    "\r\nContent-Length: " ++ toString (utf8 body).length ++
    "\r\nConnection: close\r\n\r\n" ++ body

def errorJson
    (error : String) : Json :=
  .object [("error", .string error)]

/-
  The answer to a request. The engine answers a route, or
  panics, and then the connection is closed.
-/
def serve
    (token : String)
    (engine : Route → Option (Except KronError Json))
    (input : Bytes) : String :=
  match handleHttpStream codecs token input with
  | .dropped => ""
  | .refused status error =>
      writeJson codecs status (errorJson error)
  | .routed .notFound =>
      writeJson codecs 404 (errorJson "not found")
  | .routed route =>
      match engine route with
      | none => ""
      | some (.ok body) => writeJson codecs 200 body
      | some (.error e) =>
          writeJson codecs 400 (errorJson e.toText)

/- The bytes that a leader sends to a peer. -/
def replicateRequest
    (token : String)
    (peer : NodeInfo)
    (command : RaftCommand) : Bytes :=
  let body := codecs.command.toText command
  utf8
    ("POST /v1/raft/apply HTTP/1.1\r\n" ++
      ("Host: " ++ peer.httpAddr ++ "\r\n") ++
      ("Authorization: Bearer " ++ token ++ "\r\n") ++
      "Content-Type: application/json\r\n" ++
      ("Content-Length: " ++ toString (utf8 body).length ++
        "\r\n") ++
      "Connection: close\r\n\r\n" ++ body)

/- Whether a leader takes an answer as an acknowledgement. -/
def isAcknowledged
    (response : String) : Bool :=
  "HTTP/1.1 200".toList.isPrefixOf response.toList

end Alpha

end Kron

------------------------------------------------------------
-- Tokens
------------------------------------------------------------

namespace Kron

namespace Alpha

open Audit HttpText Text

/- A token that a header can carry: it ends visibly. -/
def UsableToken
    (token : String) : Prop :=
  ∃ c,
    token.toList.getLast? = some c ∧ isWhitespace c = false

/-
  Whether a header with one token is accepted by a server
  with another: white space at its end is lost.
-/
def CarriesToken
    (sent token : String) : Prop :=
  UsableToken token ∧
    ∃ blank, isBlank blank = true ∧ sent = token ++ blank

theorem trim_bearer
    (sent : String) :
    trim (" Bearer " ++ sent) = trim ("Bearer " ++ sent) := by
  have hSpace : isBlank " " = true := by decide
  have hSplit :
      " Bearer " ++ sent = " " ++ ("Bearer " ++ sent) := by
    rw [← String.append_assoc]
    rfl
  rw [hSplit, trim_append_of_isBlank hSpace]

/- What trimming takes from the end of a text is blank. -/
theorem exists_blank_of_trim
    {s : String}
    {c : Char}
    (hFirst : s.toList.head? = some c)
    (hVisible : isWhitespace c = false) :
    ∃ blank, isBlank blank = true ∧ s = trim s ++ blank := by
  rcases List.head?_eq_some_iff.mp hFirst with ⟨rest, hRest⟩
  have hDrop :
      s.toList.dropWhile isWhitespace = s.toList := by
    rw [hRest, List.dropWhile_cons_of_neg (by simp [hVisible])]
  refine
    ⟨String.ofList (s.toList.rtakeWhile isWhitespace), ?_, ?_⟩
  · unfold isBlank
    rw [String.toList_ofList, List.all_eq_true]
    intro d hMem
    exact List.mem_rtakeWhile_imp hMem
  · unfold trim
    rw [hDrop, ← String.ofList_append,
      List.rdropWhile_append_rtakeWhile, String.ofList_toList]

theorem trim_usable
    {token : String}
    (hToken : UsableToken token) :
    trim ("Bearer " ++ token) = "Bearer " ++ token := by
  rcases hToken with ⟨c, hLast, hVisible⟩
  have hHead :
      ("Bearer " ++ token).toList.head? = some 'B' := by
    simp
  have hTail :
      ("Bearer " ++ token).toList.getLast? = some c := by
    rw [String.toList_append,
      List.getLast?_append_of_ne_nil]
    · exact hLast
    · intro hNil
      rw [hNil] at hLast
      cases hLast
  exact trim_eq_self hHead hTail (by decide) hVisible

/- A trimmed value ends visibly, and so does its token. -/
theorem usable_of_trim
    {text token : String}
    (hTrim : trim text = "Bearer " ++ token) :
    UsableToken token := by
  cases hLast : token.toList.getLast? with
  | some c =>
      refine ⟨c, hLast, ?_⟩
      apply isWhitespace_of_getLast?_trim (s := text)
      rw [hTrim, String.toList_append,
        List.getLast?_append_of_ne_nil]
      · exact hLast
      · intro hNil
        rw [hNil] at hLast
        cases hLast
  | none =>
      have hEmpty : token = "" := by
        rw [← String.toList_eq_nil_iff]
        exact List.getLast?_eq_none_iff.mp hLast
      have hSpace : isWhitespace ' ' = false := by
        apply isWhitespace_of_getLast?_trim (s := text)
        rw [hTrim, hEmpty]
        rfl
      exact absurd hSpace (by decide)

/- When the trimmed value of a header is the expected one. -/
theorem trim_bearer_eq_iff
    (sent token : String) :
    trim (" Bearer " ++ sent) = "Bearer " ++ token ↔
      CarriesToken sent token := by
  rw [trim_bearer]
  constructor
  · intro hTrim
    have hFirst :
        ("Bearer " ++ sent).toList.head? = some 'B' := by
      simp
    rcases exists_blank_of_trim hFirst (by decide) with
      ⟨blank, hBlank, hSplit⟩
    rw [hTrim, String.append_assoc] at hSplit
    exact
      ⟨usable_of_trim hTrim, blank, hBlank,
        (String.append_right_inj _).mp hSplit⟩
  · rintro ⟨hToken, blank, hBlank, rfl⟩
    rw [← String.append_assoc,
      trim_append_right_of_isBlank hBlank,
      trim_usable hToken]

end Alpha

end Kron

------------------------------------------------------------
-- What A Leader Sends
------------------------------------------------------------

namespace Kron

namespace Alpha

open Audit HttpText Text

variable (codecs : HttpCodecs)
variable (token : String)
variable (peer : NodeInfo)
variable (command : RaftCommand)

/- The headers of a request to replicate a command. -/
def replicateHeaders : List String :=
  ["Host: " ++ peer.httpAddr,
    "Authorization: Bearer " ++ token,
    "Content-Type: application/json",
    "Content-Length: " ++
      toString (utf8 (codecs.command.toText command)).length,
    "Connection: close"]

theorem replicateRequest_eq :
    replicateRequest codecs token peer command =
      utf8
          (crlfLines
              ("POST /v1/raft/apply HTTP/1.1" ::
                replicateHeaders codecs token peer command) ++
            "\r\n") ++
        utf8 (codecs.command.toText command) := by
  unfold replicateRequest replicateHeaders crlfLines
  have hPost :
      "POST /v1/raft/apply HTTP/1.1\r\n" =
        "POST /v1/raft/apply HTTP/1.1" ++ "\r\n" := rfl
  have hType :
      "Content-Type: application/json\r\n" =
        "Content-Type: application/json" ++ "\r\n" := rfl
  have hClose :
      "Connection: close\r\n\r\n" =
        "Connection: close" ++ ("\r\n" ++ "\r\n") := rfl
  rw [← utf8_append]
  simp only [hPost, hType, hClose, List.map_cons,
    List.map_nil, String.join_cons, String.join_nil,
    String.append_assoc, String.empty_append]

theorem bearerLine_eq :
    "Authorization: Bearer " ++ token =
      "Authorization" ++ ": " ++ ("Bearer " ++ token) := by
  rw [← String.append_assoc]
  rfl

/- The headers, each with its name and its value. -/
theorem replicateHeaders_eq :
    replicateHeaders codecs token peer command =
      ["Host" ++ ": " ++ peer.httpAddr,
        "Authorization" ++ ": " ++ ("Bearer " ++ token),
        "Content-Type" ++ ": " ++ "application/json",
        "Content-Length" ++ ": " ++
          toString
            (utf8 (codecs.command.toText command)).length,
        "Connection" ++ ": " ++ "close"] := by
  rw [← bearerLine_eq]
  rfl

/- A header line has one name and the trimmed value. -/
theorem headerValue_line
    {name key : String}
    (hKey : ':' ∉ key.toList)
    (value : String) :
    headerValue name (key ++ ": " ++ value) =
      if eqIgnoreAsciiCase key name then
        some (trim (" " ++ value))
      else
        none := by
  have hLine :
      key ++ ": " ++ value = key ++ ":" ++ (" " ++ value) := by
    simp only [String.append_assoc]
    rfl
  unfold headerValue
  rw [hLine, splitOnce_colon hKey]

theorem headerValue_of_name
    (name key : String)
    (hKey : ':' ∉ key.toList)
    (hName : eqIgnoreAsciiCase key name = true)
    (value : String) :
    headerValue name (key ++ ": " ++ value) =
      some (trim (" " ++ value)) := by
  rw [headerValue_line hKey, if_pos hName]

theorem headerValue_of_other
    (name key : String)
    (hKey : ':' ∉ key.toList)
    (hName : eqIgnoreAsciiCase key name = false)
    (value : String) :
    headerValue name (key ++ ": " ++ value) = none := by
  rw [headerValue_line hKey, hName]
  rfl

theorem isWhitespace_of_isDigit
    {c : Char}
    (hDigit : c.isDigit = true) :
    isWhitespace c = false := by
  have hRange : 48 ≤ c.toNat ∧ c.toNat ≤ 57 := by
    simpa [Char.isDigit, UInt32.le_iff_toNat_le] using hDigit
  unfold isWhitespace
  simp only [Bool.or_eq_false_iff, Bool.and_eq_false_iff,
    decide_eq_false_iff_not, beq_eq_false_iff_ne]
  omega

/- White space around a numeral is dropped. -/
theorem trim_numeral
    (n : Nat) :
    trim (" " ++ toString n) = toString n := by
  have hChars :
      (toString n).toList = Nat.toDigits 10 n := by
    rw [Nat.toString_eq_repr, Nat.toList_repr]
  have hVisible :
      ∀ c ∈ Nat.toDigits 10 n, isWhitespace c = false :=
    fun c hMem =>
      isWhitespace_of_isDigit
        (Nat.isDigit_of_mem_toDigits (by decide) (by decide)
          hMem)
  have hNe : Nat.toDigits 10 n ≠ [] := Nat.toDigits_ne_nil
  rw [trim_append_of_isBlank (by decide)]
  have hHead :
      (toString n).toList.head? =
        some ((Nat.toDigits 10 n).head hNe) := by
    rw [hChars, List.head?_eq_some_head]
  have hTail :
      (toString n).toList.getLast? =
        some ((Nat.toDigits 10 n).getLast hNe) := by
    rw [hChars, List.getLast?_eq_some_getLast]
  exact
    trim_eq_self hHead hTail
      (hVisible _ (List.head_mem hNe))
      (hVisible _ (List.getLast_mem hNe))

theorem contentLength_replicateHeaders
    (hSize :
      (utf8 (codecs.command.toText command)).length <
        2 ^ 64) :
    contentLength
        (replicateHeaders codecs token peer command) =
      (utf8 (codecs.command.toText command)).length := by
  have hHost :=
    headerValue_of_other "content-length" "Host"
      (by decide) (by decide) peer.httpAddr
  have hToken :=
    headerValue_of_other "content-length" "Authorization"
      (by decide) (by decide)
      ("Bearer " ++ token)
  have hType :=
    headerValue_of_other "content-length" "Content-Type"
      (by decide) (by decide)
      "application/json"
  have hLength :=
    headerValue_of_name "content-length" "Content-Length"
      (by decide) (by decide)
      (toString
        (utf8 (codecs.command.toText command)).length)
  rw [trim_numeral] at hLength
  unfold contentLength
  rw [replicateHeaders_eq]
  simp only [List.findSome?_cons, hHost, hToken, hType,
    hLength, Option.bind_none, Option.bind_some,
    parseU64_toString hSize, Option.map_some,
    Option.getD_some, UInt64.toNat_ofNat']
  exact Nat.mod_eq_of_lt hSize

theorem isAuthorized_replicateHeaders
    (expected : String) :
    isAuthorized expected
        (replicateHeaders codecs token peer command) = true ↔
      CarriesToken token expected := by
  have hHost :=
    headerValue_of_other "authorization" "Host"
      (by decide) (by decide) peer.httpAddr
  have hToken :=
    headerValue_of_name "authorization" "Authorization"
      (by decide) (by decide)
      ("Bearer " ++ token)
  have hType :=
    headerValue_of_other "authorization" "Content-Type"
      (by decide) (by decide)
      "application/json"
  have hLength :=
    headerValue_of_other "authorization" "Content-Length"
      (by decide) (by decide)
      (toString
        (utf8 (codecs.command.toText command)).length)
  have hClose :=
    headerValue_of_other "authorization" "Connection"
      (by decide) (by decide) "close"
  unfold isAuthorized
  rw [replicateHeaders_eq]
  simp only [List.any_cons, List.any_nil, hHost, hToken,
    hType, hLength, hClose, Option.any_none,
    Option.any_some, Bool.false_or, Bool.or_false]
  rw [secureEq_iff, utf8_injective.eq_iff,
    ← trim_bearer_eq_iff, ← String.append_assoc]
  rfl

theorem requestLines_ok
    (hAddr : '\n' ∉ peer.httpAddr.toList)
    (hToken : '\n' ∉ token.toList) :
    ∀ line ∈
        "POST /v1/raft/apply HTTP/1.1" ::
          replicateHeaders codecs token peer command,
      line ≠ "" ∧ '\n' ∉ line.toList := by
  unfold replicateHeaders
  simp only [List.forall_mem_cons]
  refine ⟨by decide, ?_, ?_, by decide, ?_, by decide, ?_⟩
  · simp [hAddr]
  · simp [hToken]
  · simp [JsonText.newline_notMem_toDigits]
  · exact fun _ hMem => by cases hMem

/-
  A peer reads back the command of a leader, if it is not too
  large and comes with the token of the peer.
-/
theorem handleHttpStream_replicateRequest
    {expected : String}
    (hLossless : codecs.command.Lossless)
    (hAddr : '\n' ∉ peer.httpAddr.toList)
    (hToken : '\n' ∉ token.toList)
    (hSize :
      (utf8 (codecs.command.toText command)).length <
        2 ^ 64) :
    handleHttpStream codecs expected
        (replicateRequest codecs token peer command) =
      if maxBodyBytes <
          (utf8 (codecs.command.toText command)).length then
        .refused 413 "request body too large"
      else if isAuthorized expected
          (replicateHeaders codecs token peer command) then
        .routed (.raftApply command)
      else
        .refused 401 "unauthorized" := by
  have hWords :
      splitWhitespace "POST /v1/raft/apply HTTP/1.1" =
        ["POST", "/v1/raft/apply", "HTTP/1.1"] := by
    decide +kernel
  have hSegments :
      segments "/v1/raft/apply" = ["v1", "raft", "apply"] := by
    decide +kernel
  have hRoute :
      routeHttp codecs "POST" "/v1/raft/apply"
          (codecs.command.toText command) =
        .ok (.raftApply command) := by
    unfold routeHttp parsed
    rw [hSegments, hLossless command]
    rfl
  have hHead :=
    readHead_crlfLines _
      (utf8 (codecs.command.toText command))
      (requestLines_ok codecs token peer command hAddr hToken)
  unfold handleHttpStream
  rw [replicateRequest_eq, hHead]
  simp only [List.map_map, List.map_cons, List.head?_cons,
    Option.getD_some, chomp_crlf, List.tail_cons, hWords]
  have hChomp :
      (replicateHeaders codecs token peer command).map
          (chomp ∘ fun line => line ++ "\r\n") =
        replicateHeaders codecs token peer command :=
    (List.map_congr_left fun line _ =>
      chomp_crlf line).trans (List.map_id _)
  unfold handleRequest
  rw [hChomp, contentLength_replicateHeaders _ _ _ _ hSize]
  simp only [lt_irrefl, if_false, List.take_length,
    lossy_utf8, hRoute]

end Alpha

end Kron

------------------------------------------------------------
-- Acknowledgements
------------------------------------------------------------

namespace Kron

namespace Alpha

open Audit HttpText Text

variable (codecs : HttpCodecs)

/- Only the status of success is taken as a yes. -/
theorem isAcknowledged_writeJson
    (status : Nat)
    (hStatus : status ∈ [200, 400, 401, 404, 413])
    (value : Json) :
    isAcknowledged (writeJson codecs status value) =
      (status == 200) := by
  unfold isAcknowledged writeJson
  simp only [String.toList_append, List.append_assoc]
  simp only [List.mem_cons, List.not_mem_nil, or_false]
    at hStatus
  rcases hStatus with rfl | rfl | rfl | rfl | rfl
  all_goals rfl

/- A codec that is not used. -/
def unusedCodec
    {α : Type} : JsonCodec α where
  toText := fun _ => "null"
  toTextPretty := fun _ => "null"
  fromText := fun _ => .error ⟨"invalid type: null", false⟩

def registerCommand : RaftCommand :=
  .registerWorker "w1" ["digest"] (second 30)

def registerRows : List (RaftCommand × String) :=
  [(registerCommand,
    "\"type\":\"REGISTER_WORKER\",\"worker_id\":\"w1\"," ++
      "\"tasks\":[\"digest\"]," ++
      "\"lease_until\":\"1970-01-01T00:00:30Z\"")]

theorem registerRows_ok :
    TableOk (objectTable registerRows) :=
  tableOk_of_bytes (by decide +kernel) (by decide +kernel)

/- Codecs that write one command as the real ones do. -/
noncomputable def registerCodecs : HttpCodecs where
  value :=
    { unusedCodec with
      toText := fun _ => "\x7b\"applied\":true\x7d" }
  createTimer := unusedCodec
  register := unusedCodec
  poll := unusedCodec
  complete := unusedCodec
  fail := unusedCodec
  join := unusedCodec
  leave := unusedCodec
  command := tableCodec (objectTable registerRows)

theorem length_registerCommand :
    (utf8 (registerCodecs.command.toText
      registerCommand)).length < 1024 := by
  have hFind :
      (objectTable registerRows).find?
          (fun row => row.1 = registerCommand) =
        (objectTable registerRows).head? := by
    decide +kernel
  have hShort :
      ∀ row ∈ objectTable registerRows,
        (utf8 row.2).length < 1024 := by
    decide +kernel
  have hText :
      registerCodecs.command.toText registerCommand =
        String.ofList
          (tableChars (objectTable registerRows)
            registerCommand) := rfl
  rw [hText]
  unfold tableChars
  rw [hFind]
  simp only [objectTable, registerRows, List.map_cons,
    List.head?_cons, String.ofList_toList]
  exact hShort _ List.mem_cons_self

end Alpha

end Kron

------------------------------------------------------------
-- Servers That Answer Nobody
------------------------------------------------------------

namespace Kron

namespace Alpha

open Audit HttpText Text

variable {codecs : HttpCodecs}

theorem headerValue_eq_some
    {name line value : String}
    (hValue : headerValue name line = some value) :
    ∃ text, value = trim text ∧ text.toList ⊆ line.toList := by
  unfold headerValue at hValue
  split at hValue
  · cases hValue
  · rename_i key text hSplit
    split at hValue
    · cases hValue
      exact ⟨text, rfl, splitOnce_subset hSplit⟩
    · cases hValue

/- A header that is accepted carries a usable token. -/
theorem usable_of_isAuthorized
    {token : String}
    {headers : List String}
    (hLines : ∀ line ∈ headers, '\n' ∉ line.toList)
    (hAuth : isAuthorized token headers = true) :
    UsableToken token ∧ '\n' ∉ token.toList := by
  rcases List.any_eq_true.mp hAuth with ⟨line, hMem, hLine⟩
  cases hValue : headerValue "authorization" line with
  | none =>
      rw [hValue] at hLine
      cases hLine
  | some value =>
      rw [hValue, Option.any_some, secureEq_iff,
        utf8_injective.eq_iff] at hLine
      rcases headerValue_eq_some hValue with
        ⟨text, rfl, hSubset⟩
      refine ⟨usable_of_trim hLine, ?_⟩
      intro hNewline
      have hToken : '\n' ∈ (trim text).toList := by
        rw [hLine, String.toList_append]
        exact List.mem_append_right _ hNewline
      exact hLines line hMem (hSubset (trim_subset _ hToken))

/- A request that is routed has an accepted header. -/
theorem isAuthorized_of_routed
    {token method path : String}
    {headers : List String}
    {rest : Bytes}
    {route : Route}
    (hRouted :
      handleRequest codecs token method path headers rest =
        .routed route) :
    isAuthorized token headers = true := by
  unfold handleRequest at hRouted
  split at hRouted
  · cases hRouted
  · split at hRouted
    · cases hRouted
    · split at hRouted
      · assumption
      · cases hRouted

theorem usable_of_routed
    {token : String}
    {input : Bytes}
    {route : Route}
    (hRouted :
      handleHttpStream codecs token input = .routed route) :
    UsableToken token ∧ '\n' ∉ token.toList := by
  unfold handleHttpStream at hRouted
  split at hRouted
  · cases hRouted
  · rename_i head rest hHead
    have hLines :
        ∀ line ∈ (head.map chomp).tail,
          '\n' ∉ line.toList := by
      intro line hMem
      rcases List.mem_map.mp (List.mem_of_mem_tail hMem) with
        ⟨text, hText, rfl⟩
      exact no_newline_of_readHead hHead text hText
    simp only at hRouted
    split at hRouted
    · exact
        usable_of_isAuthorized hLines
          (isAuthorized_of_routed hRouted)
    · cases hRouted

/- The lines of a request for the status of the cluster. -/
def statusLines
    (token : String) : List String :=
  ["GET /v1/cluster/status HTTP/1.1",
    "Authorization: Bearer " ++ token]

theorem routeHttp_status :
    routeHttp codecs "GET" "/v1/cluster/status" "" =
      .ok .clusterStatus := by
  have hSegments :
      segments "/v1/cluster/status" =
        ["v1", "cluster", "status"] := by
    decide +kernel
  unfold routeHttp
  rw [hSegments]
  rfl

theorem contentLength_status
    (token : String) :
    contentLength ["Authorization: Bearer " ++ token] = 0 := by
  have hOther :=
    headerValue_of_other "content-length" "Authorization"
      (by decide) (by decide)
      ("Bearer " ++ token)
  unfold contentLength
  rw [bearerLine_eq]
  simp only [List.findSome?_cons, hOther, Option.bind_none,
    List.findSome?_nil, Option.map_none, Option.getD_none]

theorem isAuthorized_status
    {token : String}
    (hUsable : UsableToken token) :
    isAuthorized token ["Authorization: Bearer " ++ token] =
      true := by
  have hToken :=
    headerValue_of_name "authorization" "Authorization"
      (by decide) (by decide)
      ("Bearer " ++ token)
  unfold isAuthorized
  rw [bearerLine_eq]
  simp only [List.any_cons, List.any_nil, hToken,
    Option.any_some, Bool.or_false]
  rw [secureEq_iff, utf8_injective.eq_iff,
    trim_append_of_isBlank (by decide)]
  exact trim_usable hUsable

/- Such a request is routed when its token is usable. -/
theorem handleHttpStream_status
    {token : String}
    (hUsable : UsableToken token)
    (hToken : '\n' ∉ token.toList) :
    handleHttpStream codecs token
        (utf8 (crlfLines (statusLines token) ++ "\r\n")) =
      .routed .clusterStatus := by
  have hLines :
      ∀ line ∈ statusLines token,
        line ≠ "" ∧ '\n' ∉ line.toList := by
    simp only [statusLines, List.forall_mem_cons]
    refine ⟨by decide, ?_, fun _ hMem => by cases hMem⟩
    simp [hToken]
  have hHead := readHead_crlfLines _ [] hLines
  rw [List.append_nil] at hHead
  have hWords :
      splitWhitespace "GET /v1/cluster/status HTTP/1.1" =
        ["GET", "/v1/cluster/status", "HTTP/1.1"] := by
    decide +kernel
  have hBody : lossy [] = "" := lossy_utf8 ""
  unfold handleHttpStream
  rw [hHead]
  simp only [statusLines, List.map_cons, List.map_nil,
    List.head?_cons, Option.getD_some, chomp_crlf,
    List.tail_cons, hWords]
  unfold handleRequest
  simp only [contentLength_status, isAuthorized_status hUsable,
    List.take_zero, hBody, routeHttp_status,
    Nat.not_lt_zero, if_false, if_true]

/-
  Some request reaches the engine of a server exactly when
  its token is not empty, has no newline and does not end in
  white space: with another token it answers nobody.
-/
theorem reachable_iff_usable
    (codecs : HttpCodecs)
    (token : String) :
    (∃ input route,
      handleHttpStream codecs token input = .routed route) ↔
      UsableToken token ∧ '\n' ∉ token.toList := by
  constructor
  · rintro ⟨input, route, hRouted⟩
    exact usable_of_routed hRouted
  · rintro ⟨hUsable, hLine⟩
    exact
      ⟨_, .clusterStatus,
        handleHttpStream_status hUsable hLine⟩

end Alpha

end Kron
