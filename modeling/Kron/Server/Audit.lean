import Kron.Embedded.Log

/-
  The audit log of the server.

  Records are chained by their hashes and numbered from one.
  The reader tolerates a last record that was cut short; the
  writer appends after whatever the file ends with, and goes
  on from the sequence number and the hash that it read.

  Key definitions include:
    * `Kron.AuditRecord`
    * `Kron.Audit.verify`
    * `Kron.Audit.readLastState`
    * `Kron.Audit.audit`
    * `Kron.Audit.EndsClean`

  Key theorems include:
    * `Kron.Audit.verify_eq_ok_iff`
    * `Kron.Audit.readLastState_of_verify`
    * `Kron.Audit.linked_append`
    * `Kron.Audit.verify_auditAll_iff_endsClean`
-/

------------------------------------------------------------
-- Records
------------------------------------------------------------

namespace Kron

/- The fields of a record that its hash covers. -/
structure AuditContent where
  seq : UInt64
  ts : DateTime
  nodeId : String
  action : String
  outcome : String
  status : UInt16
  actor : String
  role : String
  tenantId : Option String
  reason : Option String
  prevHash : String
deriving DecidableEq, Repr

structure AuditRecord extends AuditContent where
  hash : String
deriving DecidableEq, Repr

structure AuditState where
  seq : UInt64
  hash : String
deriving DecidableEq, Repr

inductive AuthRole where
| reader
| worker
| operator
| admin
| raft
deriving DecidableEq, Repr

def AuthRole.asStr : AuthRole → String
| .reader => "reader"
| .worker => "worker"
| .operator => "operator"
| .admin => "admin"
| .raft => "raft"

structure AuthContext where
  actor : String
  role : AuthRole
  tenantId : Option String
deriving DecidableEq, Repr

/- The arguments of `audit`, with the clock reading. -/
structure AuditCall where
  auth : Option AuthContext
  action : String
  outcome : String
  status : UInt16
  reason : Option String
  now : DateTime
deriving DecidableEq, Repr

end Kron

------------------------------------------------------------
-- Reading And Writing
------------------------------------------------------------

namespace Kron

namespace Audit

open Text
open AppendOnlyLog

/-
  `digest` stands for the SHA-256 of the canonical JSON of a
  record without its hash, in hexadecimal.
-/
variable (digest : AuditContent → String)
variable (codec : JsonCodec AuditRecord)

def computeHash
    (record : AuditRecord) : String :=
  digest record.toAuditContent

/- The state before any record. -/
def initialState : AuditState where
  seq := 0
  hash := ""

/- The loop of `verify`, from line number `lineNo`. -/
def verifyLoop
    (lastNonEmpty : Option Nat) :
    Nat → List String → String → UInt64 → UInt64 →
      Except String UInt64
| _, [], _, _, records => .ok records
| lineNo, line :: rest, expectedPrev, expectedSeq,
    records =>
    if trim line = "" then
      verifyLoop lastNonEmpty (lineNo + 1) rest expectedPrev
        expectedSeq records
    else
      match codec.fromText line with
      | .error e =>
          if some lineNo = lastNonEmpty ∧
              e.isEof = true then
            .ok records
          else
            .error
              ("TAMPERED: line=" ++ toString (lineNo + 1) ++
                " invalid json: " ++ e.message)
      | .ok record =>
          if record.seq ≠ expectedSeq then
            .error
              ("TAMPERED: record seq=" ++
                toString record.seq ++
                " sequence mismatch, expected " ++
                toString expectedSeq)
          else if record.prevHash ≠ expectedPrev then
            .error
              ("TAMPERED: record seq=" ++
                toString record.seq ++
                " prev_hash mismatch")
          else if record.hash ≠
              computeHash digest record then
            .error
              ("TAMPERED: record seq=" ++
                toString record.seq ++ " hash mismatch")
          else
            verifyLoop lastNonEmpty (lineNo + 1) rest
              record.hash (expectedSeq + 1) (records + 1)

/- Check the whole file; `none` is a missing file. -/
def verify
    (file : Option Bytes) : Except String UInt64 :=
  match file with
  | none => .ok 0
  | some bytes =>
      match readStrings bytes with
      | .error message => .error message
      | .ok strings =>
          verifyLoop digest codec
            (rposition hasText strings) 0 strings "" 1 0

/- The loop of `read_last_state_unverified`. -/
def lastStateLoop
    (lastNonEmpty : Option Nat) :
    Nat → List String → AuditState →
      Except KronError AuditState
| _, [], state => .ok state
| lineNo, line :: rest, state =>
    if trim line = "" then
      lastStateLoop lastNonEmpty (lineNo + 1) rest state
    else
      match codec.fromText line with
      | .error e =>
          if some lineNo = lastNonEmpty ∧
              e.isEof = true then
            .ok state
          else
            .error (.logSerde e)
      | .ok record =>
          lastStateLoop lastNonEmpty (lineNo + 1) rest
            { seq := record.seq
              hash := record.hash }

def readLastStateUnverified
    (file : Option Bytes) : Except KronError AuditState :=
  match file with
  | none => .ok initialState
  | some bytes =>
      match readStrings bytes with
      | .error message => .error (.logIo message)
      | .ok strings =>
          lastStateLoop codec (rposition hasText strings) 0
            strings initialState

/- The state that the server starts from. -/
def readLastState
    (file : Option Bytes) : Except KronError AuditState :=
  match file with
  | none => .ok initialState
  | some bytes =>
      match verify digest codec (some bytes) with
      | .error message => .error (.ipcUnavailable message)
      | .ok _ => readLastStateUnverified codec (some bytes)

/- The record of a call. -/
def recordOf
    (nodeName : String)
    (state : AuditState)
    (call : AuditCall) : AuditRecord :=
  let content : AuditContent :=
    { seq := state.seq + 1
      ts := call.now
      nodeId := nodeName
      action := call.action
      outcome := call.outcome
      status := call.status
      actor :=
        (call.auth.map AuthContext.actor).getD "anonymous"
      role :=
        (call.auth.map fun ctx => ctx.role.asStr).getD
          "none"
      tenantId := call.auth.bind AuthContext.tenantId
      reason := call.reason
      prevHash := state.hash }
  { content with hash := digest content }

/- The bytes of one record with its newline. -/
def encodeRecord
    (record : AuditRecord) : Bytes :=
  utf8 (codec.toText record) ++ [newline]

/-
  `audit`, when its write succeeds. The lock on the state is
  held from the reading of the state to its update, so that
  calls follow one another in some order.
-/
def audit
    (nodeName : String)
    (s : AuditState × Bytes)
    (call : AuditCall) : AuditState × Bytes :=
  let record := recordOf digest nodeName s.1 call
  ({ seq := record.seq
     hash := record.hash },
    s.2 ++ encodeRecord codec record)

/- Calls in the order in which they get the lock. -/
def auditAll
    (nodeName : String)
    (s : AuditState × Bytes)
    (calls : List AuditCall) : AuditState × Bytes :=
  calls.foldl (audit digest codec nodeName) s

end Audit

end Kron

------------------------------------------------------------
-- What The Readers Accept
------------------------------------------------------------

namespace Kron

namespace Audit

open Text
open AppendOnlyLog

variable (digest : AuditContent → String)
variable (codec : JsonCodec AuditRecord)

/- The lines that are not blank. -/
def textLines
    (strings : List String) : List String :=
  strings.filter hasText

/- Records that continue a chain. -/
def Linked : String → UInt64 → List AuditRecord → Prop
| _, _, [] => True
| prev, seq, record :: rest =>
    record.seq = seq ∧ record.prevHash = prev ∧
      record.hash = computeHash digest record ∧
      Linked record.hash (seq + 1) rest

/- The state after some records. -/
def stateAfter
    (state : AuditState)
    (records : List AuditRecord) : AuditState :=
  records.foldl
    (fun _ record =>
      { seq := record.seq
        hash := record.hash }) state

variable {digest codec}

theorem textLines_cons_of_blank
    {line : String}
    (rest : List String)
    (hLine : trim line = "") :
    textLines (line :: rest) = textLines rest := by
  simp [textLines, hasText, hLine]

theorem textLines_cons_of_text
    {line : String}
    (rest : List String)
    (hLine : trim line ≠ "") :
    textLines (line :: rest) = line :: textLines rest := by
  simp [textLines, hasText, hLine]

theorem textLines_eq_nil_iff
    (strings : List String) :
    textLines strings = [] ↔ texts strings = [] := by
  rw [texts_eq_nil_iff, rposition_eq_none_iff]
  simp [textLines, List.filter_eq_nil_iff]

/- Blank lines are skipped. -/
theorem verifyLoop_of_blank
    (last : Option Nat)
    (lineNo : Nat)
    {strings : List String}
    (prev : String)
    (seq records : UInt64)
    (hBlank : textLines strings = []) :
    verifyLoop digest codec last lineNo strings prev seq
        records = .ok records := by
  induction strings generalizing lineNo with
  | nil => rfl
  | cons line rest ih =>
      by_cases hLine : trim line = ""
      · rw [textLines_cons_of_blank rest hLine] at hBlank
        simp only [verifyLoop, hLine, if_true]
        exact ih (lineNo + 1) hBlank
      · rw [textLines_cons_of_text rest hLine] at hBlank
        cases hBlank

/- A chain starts with its first record. -/
theorem exists_cons_linked_iff
    {record : AuditRecord}
    {decoded : Option (List AuditRecord)}
    {prev : String}
    {seq records n : UInt64} :
    (∃ recs,
        decoded.map (record :: ·) = some recs ∧
          Linked digest prev seq recs ∧
          n = records + UInt64.ofNat recs.length) ↔
      record.seq = seq ∧ record.prevHash = prev ∧
        record.hash = computeHash digest record ∧
        ∃ new,
          decoded = some new ∧
            Linked digest record.hash (seq + 1) new ∧
            n = records + 1 + UInt64.ofNat new.length := by
  have hLength :
      ∀ new : List AuditRecord,
        records + UInt64.ofNat (record :: new).length =
          records + 1 + UInt64.ofNat new.length := by
    intro new
    rw [List.length_cons, UInt64.ofNat_add, add_assoc,
      add_comm (UInt64.ofNat new.length)]
    rfl
  constructor
  · rintro ⟨recs, hMap, hLinked, hn⟩
    rcases Option.map_eq_some_iff.mp hMap with
      ⟨new, hNew, rfl⟩
    rw [hLength] at hn
    exact
      ⟨hLinked.1, hLinked.2.1, hLinked.2.2.1, new, hNew,
        hLinked.2.2.2, hn⟩
  · rintro ⟨hSeq, hPrev, hHash, new, hNew, hLinked, hn⟩
    refine
      ⟨record :: new, by rw [hNew]; rfl,
        ⟨hSeq, hPrev, hHash, hLinked⟩, ?_⟩
    rw [hLength]
    exact hn

/- The check accepts chains that start where it expects. -/
theorem verifyLoop_eq_ok_iff
    (lineNo : Nat)
    (strings : List String)
    (prev : String)
    (seq records n : UInt64) :
    verifyLoop digest codec (lastFrom lineNo strings) lineNo
        strings prev seq records = .ok n ↔
      ∃ recs,
        codec.decodeAll (textLines strings) = some recs ∧
          Linked digest prev seq recs ∧
          n = records + UInt64.ofNat recs.length := by
  induction strings generalizing lineNo prev seq records with
  | nil =>
      simp [verifyLoop, textLines, JsonCodec.decodeAll, Linked,
        eq_comm]
  | cons line rest ih =>
      by_cases hLine : trim line = ""
      · rw [textLines_cons_of_blank rest hLine,
          lastFrom_cons lineNo line rest
            (Or.inr (by simp [hasText, hLine]))]
        simp only [verifyLoop, hLine, if_true]
        exact ih (lineNo + 1) prev seq records
      · rw [textLines_cons_of_text rest hLine]
        simp only [verifyLoop, hLine, if_false, JsonCodec.decodeAll]
        cases hParse : codec.fromText line with
        | error e =>
            have hLast :=
              some_eq_lastFrom_iff lineNo line rest
                (by simp [hasText, hLine])
            rw [← textLines_eq_nil_iff] at hLast
            simp only [hLast]
            by_cases hEnd :
                textLines rest = [] ∧ e.isEof = true
            · simp [hEnd, Linked, eq_comm]
            · simp [hEnd]
        | ok record =>
            simp only
            rw [exists_cons_linked_iff]
            by_cases hSeq : record.seq = seq
            · rw [if_neg (not_not_intro hSeq)]
              by_cases hPrev : record.prevHash = prev
              · rw [if_neg (not_not_intro hPrev)]
                by_cases hHash :
                    record.hash = computeHash digest record
                · rw [if_neg (not_not_intro hHash)]
                  simp only [hSeq, hPrev, ← hHash, true_and]
                  by_cases hRest : textLines rest = []
                  · rw [verifyLoop_of_blank _ _ _ _ _ hRest,
                      hRest]
                    simp [JsonCodec.decodeAll, Linked, eq_comm]
                  · have hTexts : texts rest ≠ [] := by
                      rw [Ne, ← textLines_eq_nil_iff]
                      exact hRest
                    rw [lastFrom_cons lineNo line rest
                      (Or.inl hTexts)]
                    exact
                      ih (lineNo + 1) record.hash (seq + 1)
                        (records + 1)
                · simp [hHash]
              · simp [hPrev]
            · simp [hSeq]

/- A file is accepted when its lines decode to a chain. -/
theorem verify_eq_ok_iff
    (bytes : Bytes)
    (n : UInt64) :
    verify digest codec (some bytes) = .ok n ↔
      ∃ strings recs,
        readStrings bytes = .ok strings ∧
          codec.decodeAll (textLines strings) =
              some recs ∧
          Linked digest "" 1 recs ∧
          n = UInt64.ofNat recs.length := by
  simp only [verify]
  cases hRead : readStrings bytes with
  | error message => simp
  | ok strings =>
      have hLast :
          rposition hasText strings = lastFrom 0 strings := by
        simp [lastFrom]
      simp only [hLast, verifyLoop_eq_ok_iff, zero_add,
        Except.ok.injEq]
      constructor
      · rintro ⟨recs, hDecode, hLinked, hn⟩
        exact ⟨strings, recs, rfl, hDecode, hLinked, hn⟩
      · rintro ⟨_, recs, rfl, hDecode, hLinked, hn⟩
        exact ⟨recs, hDecode, hLinked, hn⟩

theorem lastStateLoop_of_blank
    (last : Option Nat)
    (lineNo : Nat)
    {strings : List String}
    (state : AuditState)
    (hBlank : textLines strings = []) :
    lastStateLoop codec last lineNo strings state =
      .ok state := by
  induction strings generalizing lineNo with
  | nil => rfl
  | cons line rest ih =>
      by_cases hLine : trim line = ""
      · rw [textLines_cons_of_blank rest hLine] at hBlank
        simp only [lastStateLoop, hLine, if_true]
        exact ih (lineNo + 1) hBlank
      · rw [textLines_cons_of_text rest hLine] at hBlank
        cases hBlank

/- The state that is read is the one after all records. -/
theorem lastStateLoop_of_decode
    (lineNo : Nat)
    (strings : List String)
    (state : AuditState)
    {recs : List AuditRecord}
    (hDecode :
      codec.decodeAll (textLines strings) = some recs) :
    lastStateLoop codec (lastFrom lineNo strings) lineNo
        strings state = .ok (stateAfter state recs) := by
  induction strings generalizing lineNo state recs with
  | nil =>
      cases hDecode
      rfl
  | cons line rest ih =>
      by_cases hLine : trim line = ""
      · rw [textLines_cons_of_blank rest hLine] at hDecode
        rw [lastFrom_cons lineNo line rest
          (Or.inr (by simp [hasText, hLine]))]
        simp only [lastStateLoop, hLine, if_true]
        exact ih (lineNo + 1) state hDecode
      · rw [textLines_cons_of_text rest hLine] at hDecode
        simp only [lastStateLoop, hLine, if_false]
        simp only [JsonCodec.decodeAll] at hDecode
        cases hParse : codec.fromText line with
        | error e =>
            have hLast :=
              some_eq_lastFrom_iff lineNo line rest
                (by simp [hasText, hLine])
            rw [← textLines_eq_nil_iff] at hLast
            simp only [hParse] at hDecode
            simp only [hLast]
            split at hDecode
            · rename_i hEnd
              cases hDecode
              rw [if_pos hEnd]
              rfl
            · cases hDecode
        | ok record =>
            rw [hParse] at hDecode
            rcases Option.map_eq_some_iff.mp hDecode with
              ⟨new, hNew, rfl⟩
            simp only
            by_cases hRest : textLines rest = []
            · rw [hRest] at hNew
              cases hNew
              exact lastStateLoop_of_blank _ _ _ hRest
            · have hTexts : texts rest ≠ [] := by
                rw [Ne, ← textLines_eq_nil_iff]
                exact hRest
              rw [lastFrom_cons lineNo line rest
                (Or.inl hTexts)]
              exact ih (lineNo + 1) _ hNew

/- The server can start from every accepted file. -/
theorem readLastState_of_verify
    {bytes : Bytes}
    {strings : List String}
    {recs : List AuditRecord}
    {n : UInt64}
    (hVerify : verify digest codec (some bytes) = .ok n)
    (hRead : readStrings bytes = .ok strings)
    (hDecode :
      codec.decodeAll (textLines strings) = some recs) :
    readLastState digest codec (some bytes) =
      .ok (stateAfter initialState recs) := by
  have hLast :
      rposition hasText strings = lastFrom 0 strings := by
    simp [lastFrom]
  simp only [readLastState, hVerify,
    readLastStateUnverified, hRead, hLast]
  exact lastStateLoop_of_decode 0 strings initialState hDecode

end Audit

end Kron

------------------------------------------------------------
-- Chains
------------------------------------------------------------

namespace Kron

namespace Audit

variable {digest : AuditContent → String}

/- A chain in two parts. -/
theorem linked_append
    (state : AuditState)
    (xs ys : List AuditRecord) :
    Linked digest state.hash (state.seq + 1) (xs ++ ys) ↔
      Linked digest state.hash (state.seq + 1) xs ∧
        Linked digest (stateAfter state xs).hash
          ((stateAfter state xs).seq + 1) ys := by
  induction xs generalizing state with
  | nil => simp [Linked, stateAfter]
  | cons x xs ih =>
      have hTail :
          stateAfter state (x :: xs) =
            stateAfter
              { seq := x.seq
                hash := x.hash } xs := rfl
      rw [List.cons_append, hTail]
      simp only [Linked]
      constructor
      · rintro ⟨hSeq, hPrev, hHash, hRest⟩
        rw [← hSeq] at hRest
        have hBoth :=
          (ih
            { seq := x.seq
              hash := x.hash }).mp hRest
        rw [← hSeq]
        exact
          ⟨⟨rfl, hPrev, hHash, hBoth.1⟩, hBoth.2⟩
      · rintro ⟨⟨hSeq, hPrev, hHash, hRest⟩, hYs⟩
        rw [← hSeq] at hRest
        rw [← hSeq]
        exact
          ⟨rfl, hPrev, hHash,
            (ih
              { seq := x.seq
                hash := x.hash }).mpr ⟨hRest, hYs⟩⟩

/- The records that calls write. -/
def recordsOf
    (digest : AuditContent → String)
    (nodeName : String) :
    AuditState → List AuditCall → List AuditRecord
| _, [] => []
| state, call :: calls =>
    let record := recordOf digest nodeName state call
    record ::
      recordsOf digest nodeName
        { seq := record.seq
          hash := record.hash } calls

/- Calls continue the chain of the state they start from. -/
theorem linked_recordsOf
    (nodeName : String)
    (state : AuditState)
    (calls : List AuditCall) :
    Linked digest state.hash (state.seq + 1)
      (recordsOf digest nodeName state calls) := by
  induction calls generalizing state with
  | nil => trivial
  | cons call calls ih =>
      exact
        ⟨rfl, rfl, rfl,
          ih
            { seq :=
                (recordOf digest nodeName state call).seq
              hash :=
                (recordOf digest nodeName state
                  call).hash }⟩

theorem length_recordsOf
    (nodeName : String)
    (state : AuditState)
    (calls : List AuditCall) :
    (recordsOf digest nodeName state calls).length =
      calls.length := by
  induction calls generalizing state with
  | nil => rfl
  | cons call calls ih => simp [recordsOf, ih]

/- Calls append their records. -/
theorem auditAll_snd
    (codec : JsonCodec AuditRecord)
    (nodeName : String)
    (state : AuditState)
    (bytes : Bytes)
    (calls : List AuditCall) :
    (auditAll digest codec nodeName (state, bytes)
        calls).2 =
      bytes ++
        (recordsOf digest nodeName state calls).flatMap
          (encodeRecord codec) := by
  induction calls generalizing state bytes with
  | nil => simp [auditAll, recordsOf]
  | cons call calls ih =>
      have hStep :
          auditAll digest codec nodeName (state, bytes)
              (call :: calls) =
            auditAll digest codec nodeName
              (audit digest codec nodeName (state, bytes)
                call) calls := rfl
      rw [hStep]
      simp only [audit]
      rw [ih, recordsOf, List.flatMap_cons,
        List.append_assoc]

end Audit

end Kron

------------------------------------------------------------
-- Appending After A Start
------------------------------------------------------------

namespace Kron

namespace Audit

open Text
open AppendOnlyLog
open JsonCodec

variable {digest : AuditContent → String}
variable {codec : JsonCodec AuditRecord}

/- The last line of a file that is not blank. -/
def lastText
    (bytes : Bytes) : Option String :=
  match readStrings bytes with
  | .error _ => none
  | .ok strings => (textLines strings).getLast?

/-
  Nothing but JSON white space follows the last newline, and
  the last line that is not blank parses.
-/
def EndsClean
    (codec : JsonCodec AuditRecord)
    (bytes : Bytes) : Prop :=
  (∃ s, fromUtf8 (lastLine bytes) = some s ∧
      isJsonBlank s = true) ∧
    ∀ t, lastText bytes = some t →
      ∃ record, codec.fromText t = .ok record

/- The lines of a file, and what follows the last newline. -/
structure Split
    (bytes : Bytes)
    (closed : List String)
    (s : String) : Prop where
  closed :
    (lines (closedPart bytes)).map dropCr =
      closed.map utf8
  last : lastLine bytes = utf8 s

theorem textLines_append
    (xs ys : List String) :
    textLines (xs ++ ys) = textLines xs ++ textLines ys := by
  simp [textLines]

theorem textLines_singleton
    (s : String) :
    textLines [s] =
      if isBlank s = true then [] else [s] := by
  have hTrim := trim_eq_empty_iff s
  by_cases hBlank : isBlank s = true
  · rw [if_pos hBlank]
    exact textLines_cons_of_blank [] (hTrim.mpr hBlank)
  · rw [if_neg hBlank]
    have hNe : trim s ≠ "" := by
      rw [Ne, hTrim]
      exact hBlank
    exact textLines_cons_of_text [] hNe

/- A file that is read can be split at its last newline. -/
theorem exists_split
    {bytes : Bytes}
    {strings : List String}
    (hRead : readStrings bytes = .ok strings) :
    ∃ closed s,
      Split bytes closed s ∧
        textLines strings =
          textLines closed ++
            (if isBlank s = true then [] else [s]) := by
  rw [readStrings_eq_ok_iff] at hRead
  unfold bufLines at hRead
  rcases List.map_eq_append_iff.mp hRead.symm with
    ⟨closed, last, hSplit, hClosed, hLast⟩
  rw [lines_lastLine] at hLast
  by_cases hNil : lastLine bytes = []
  · rw [if_pos hNil, List.map_eq_nil_iff] at hLast
    refine ⟨closed, "", ⟨hClosed.symm, ?_⟩, ?_⟩
    · rw [hNil]
      simp [utf8]
    · rw [hSplit, hLast, List.append_nil,
        if_pos isBlank_empty, List.append_nil]
  · rw [if_neg hNil] at hLast
    rcases List.map_eq_singleton_iff.mp hLast with
      ⟨s, hs, hBytes⟩
    refine ⟨closed, s, ⟨hClosed.symm, hBytes.symm⟩, ?_⟩
    rw [hSplit, hs, textLines_append, textLines_singleton]

/- Records continue the last line of the file. -/
theorem textLines_of_split
    {bytes : Bytes}
    {closed : List String}
    {s : String}
    (record : AuditRecord)
    (records : List AuditRecord)
    (hWrites : ∀ r, codec.WritesLine r)
    (hSplit : Split bytes closed s) :
    ∃ strings,
      readStrings
            (bytes ++
              (record :: records).flatMap
                (encodeRecord codec)) =
          .ok strings ∧
        textLines strings =
          textLines closed ++
            (s ++ codec.toText record) ::
              records.map codec.toText := by
  have hText :
      ∀ r : AuditRecord, ∀ t : String,
        trim (t ++ codec.toText r) ≠ "" := by
    intro r t hEmpty
    have hBlank := (trim_eq_empty_iff _).mp hEmpty
    rw [isBlank_append, (hWrites r).not_isBlank] at hBlank
    simp at hBlank
  have hCr :
      ∀ r : AuditRecord, ∀ bs : Bytes,
        dropCr (bs ++ utf8 (codec.toText r)) =
          bs ++ utf8 (codec.toText r) := by
    intro r bs
    exact
      dropCr_append_utf8 bs (hWrites r).closes (by decide)
        (by decide)
  have hBytes :
      bytes ++
          (record :: records).flatMap (encodeRecord codec) =
        bytes ++
          (utf8 (codec.toText record) ::
            records.map fun r =>
              utf8 (codec.toText r)).flatMap
            fun t => t ++ [newline] := by
    rw [← List.map_cons (f := fun r : AuditRecord =>
      utf8 (codec.toText r)), List.flatMap_map]
    rfl
  refine
    ⟨closed ++
      (s ++ codec.toText record) ::
        records.map codec.toText, ?_, ?_⟩
  · rw [readStrings_eq_ok_iff, hBytes,
      bufLines_append_texts, hSplit.closed, hSplit.last]
    · have hRest :
          (records.map fun r =>
              utf8 (codec.toText r)).map dropCr =
            (records.map codec.toText).map utf8 := by
        rw [List.map_map, List.map_map]
        apply List.map_congr_left
        intro r _
        exact hCr r []
      rw [List.map_cons, hCr, hRest]
      simp
    · intro t hMem
      rcases List.mem_cons.mp hMem with rfl | hMem
      · exact (hWrites record).noNewline
      · rcases List.mem_map.mp hMem with ⟨r, _, rfl⟩
        exact (hWrites r).noNewline
  · rw [textLines_append,
      textLines_cons_of_text _ (hText record s)]
    congr 2
    unfold textLines
    rw [List.filter_eq_self]
    intro t hMem
    rcases List.mem_map.mp hMem with ⟨r, _, rfl⟩
    have hNe := hText r ""
    simpa [hasText] using hNe

/- Written records parse where they stand alone. -/
theorem parses_toText
    (hWrites : ∀ r, codec.WritesLine r)
    (records : List AuditRecord) :
    codec.Parses (records.map codec.toText) records := by
  induction records with
  | nil => exact .nil
  | cons record records ih =>
      exact .cons (hWrites record).decodes ih

/- After a clean end all records are read. -/
theorem decode_of_clean
    {bytes : Bytes}
    {strings closed : List String}
    {s : String}
    {recs records : List AuditRecord}
    {record : AuditRecord}
    (hWrites : ∀ r, codec.WritesLine r)
    (hSpace : codec.SkipsSpace)
    (hRead : readStrings bytes = .ok strings)
    (hSplit : Split bytes closed s)
    (hTexts :
      textLines strings =
        textLines closed ++
          (if isBlank s = true then [] else [s]))
    (hDecode :
      codec.decodeAll (textLines strings) = some recs)
    (hClean : EndsClean codec bytes) :
    codec.decodeAll
        (textLines closed ++
          (s ++ codec.toText record) ::
            records.map codec.toText) =
      some (recs ++ record :: records) := by
  rcases hClean with ⟨⟨s', hLast, hBlank⟩, hParse⟩
  have hSame : s' = s := by
    rw [hSplit.last, fromUtf8_utf8] at hLast
    exact (Option.some.inj hLast).symm
  rw [hSame] at hBlank
  rw [if_pos (isBlank_of_isJsonBlank hBlank),
    List.append_nil] at hTexts
  rcases decodeAll_cases hDecode with
    hAll | ⟨xs, t, e, hEq, _, hError, _⟩
  · rw [← hTexts, decodeAll_append hAll,
      decodeAll_of_parses
        (.cons (hSpace s record hBlank)
          (parses_toText hWrites records))]
    rfl
  · have hLastText : lastText bytes = some t := by
      simp [lastText, hRead, hEq]
    rcases hParse t hLastText with ⟨r, hOk⟩
    rw [hError] at hOk
    cases hOk

/- After another end fewer records are read, or none. -/
theorem decode_of_torn
    {bytes : Bytes}
    {strings closed : List String}
    {s : String}
    {recs records recs' : List AuditRecord}
    {record : AuditRecord}
    (hFails : codec.PrefixFails)
    (hRead : readStrings bytes = .ok strings)
    (hSplit : Split bytes closed s)
    (hTexts :
      textLines strings =
        textLines closed ++
          (if isBlank s = true then [] else [s]))
    (hDecode :
      codec.decodeAll (textLines strings) = some recs)
    (hTorn : ¬ EndsClean codec bytes)
    (hAfter :
      codec.decodeAll
          (textLines closed ++
            (s ++ codec.toText record) ::
              records.map codec.toText) =
        some recs') :
    records = [] ∧
      (recs'.length = recs.length ∨
        recs.length = recs'.length + 1) := by
  by_cases hBlank : isBlank s = true
  · rw [if_pos hBlank, List.append_nil] at hTexts
    rw [← hTexts] at hAfter
    rcases decodeAll_cases hDecode with
      hAll | ⟨xs, t, e, hEq, hInit, hError, _⟩
    · -- all lines parse, so the white space is not of JSON
      have hNotSpace : isJsonBlank s = false := by
        by_contra hSpace
        apply hTorn
        refine ⟨⟨s, ?_, by simpa using hSpace⟩, ?_⟩
        · rw [hSplit.last, fromUtf8_utf8]
        · intro t hLast
          have hMem : t ∈ textLines strings := by
            apply List.mem_of_getLast?
            simpa [lastText, hRead] using hLast
          exact hAll.ok_of_mem hMem
      rcases hFails s record hNotSpace (Or.inl hBlank) with
        ⟨e, hError⟩
      rcases decodeAll_append_error hAll hError hAfter with
        ⟨hNil, hEq⟩
      exact
        ⟨List.map_eq_nil_iff.mp hNil,
          Or.inl (by rw [hEq])⟩
    · -- the torn line is now in the middle
      rw [hEq, List.append_assoc] at hAfter
      have hNil :=
        (decodeAll_append_error hInit hError hAfter).1
      simp at hNil
  · have hNotSpace : isJsonBlank s = false := by
      by_contra hSpace
      exact
        hBlank (isBlank_of_isJsonBlank (by simpa using hSpace))
    rw [if_neg hBlank] at hTexts
    rw [hTexts] at hDecode
    rcases decodeAll_cases hDecode with
      hAll | ⟨xs, t, e, hEq, hInit, hError, hEof⟩
    · -- a record without its newline
      rcases Parses.concat hAll with
        ⟨front, last, hRecs, hFront, hLast⟩
      rcases hFails s record hNotSpace
          (Or.inr (Or.inl ⟨last, hLast⟩)) with ⟨e, hError⟩
      rcases decodeAll_append_error hFront hError hAfter
        with ⟨hNil, hEq⟩
      refine ⟨List.map_eq_nil_iff.mp hNil, Or.inr ?_⟩
      rw [hRecs, hEq]
      simp
    · -- a record that was cut short
      rcases List.append_inj' hEq rfl with ⟨hXs, hT⟩
      rw [← (List.cons.inj hT).1] at hError
      rw [← hXs] at hInit
      rcases hFails s record hNotSpace
          (Or.inr (Or.inr ⟨e, hError, hEof⟩)) with
        ⟨e', hError'⟩
      rcases decodeAll_append_error hInit hError' hAfter
        with ⟨hNil, hEq'⟩
      exact
        ⟨List.map_eq_nil_iff.mp hNil,
          Or.inl (by rw [hEq'])⟩

/- One record more changes the number of records. -/
theorem ofNat_length_ne
    {m m' : Nat}
    (hLength : m' = m ∨ m = m' + 1) :
    UInt64.ofNat m' ≠ UInt64.ofNat m + UInt64.ofNat 1 := by
  have hOne : UInt64.ofNat 1 = 1 := rfl
  rcases hLength with rfl | rfl
  · rw [hOne]
    intro h
    simp at h
  · rw [hOne, UInt64.ofNat_add, hOne, add_assoc]
    intro h
    simp at h

end Audit

end Kron

------------------------------------------------------------
-- The Append Law
------------------------------------------------------------

namespace Kron

namespace Audit

open Text
open AppendOnlyLog
open JsonCodec

variable {digest : AuditContent → String}
variable {codec : JsonCodec AuditRecord}

/- The file has `n` records, and the server can start. -/
def Accepted
    (digest : AuditContent → String)
    (codec : JsonCodec AuditRecord)
    (file : Option Bytes)
    (n : UInt64) : Prop :=
  verify digest codec file = .ok n ∧
    ∃ state, readLastState digest codec file = .ok state

/- A missing file is read as an empty one. -/
theorem verify_openFile
    (file : Option Bytes) :
    verify digest codec (some (openFile file)) =
        verify digest codec file ∧
      readLastState digest codec (some (openFile file)) =
        readLastState digest codec file := by
  cases file with
  | none => exact ⟨rfl, rfl⟩
  | some bytes => exact ⟨rfl, rfl⟩

/- What the calls wrote, after what the file held. -/
theorem verify_auditAll_iff
    (nodeName : String)
    {bytes : Bytes}
    {n : UInt64}
    {calls : List AuditCall}
    (hWrites : ∀ r, codec.WritesLine r)
    (hSpace : codec.SkipsSpace)
    (hFails : codec.PrefixFails)
    (hVerify : verify digest codec (some bytes) = .ok n)
    (hCalls : calls ≠ []) :
    ∃ state,
      readLastState digest codec (some bytes) = .ok state ∧
        (verify digest codec
              (some
                (auditAll digest codec nodeName
                  (state, bytes) calls).2) =
            .ok (n + UInt64.ofNat calls.length) ↔
          EndsClean codec bytes) := by
  rcases (verify_eq_ok_iff bytes n).mp hVerify with
    ⟨strings, recs, hRead, hDecode, hLinked, hn⟩
  refine
    ⟨stateAfter initialState recs,
      readLastState_of_verify hVerify hRead hDecode, ?_⟩
  rw [auditAll_snd]
  have hNew :
      Linked digest (stateAfter initialState recs).hash
        ((stateAfter initialState recs).seq + 1)
        (recordsOf digest nodeName
          (stateAfter initialState recs) calls) :=
    linked_recordsOf nodeName _ calls
  have hLength :
      (recordsOf digest nodeName
          (stateAfter initialState recs) calls).length =
        calls.length :=
    length_recordsOf nodeName _ calls
  cases hRecords :
      recordsOf digest nodeName
        (stateAfter initialState recs) calls with
  | nil =>
      rw [hRecords] at hLength
      exact
        (hCalls
          (List.eq_nil_of_length_eq_zero
            hLength.symm)).elim
  | cons record records =>
      rw [hRecords] at hNew hLength
      rcases exists_split hRead with
        ⟨closed, s, hSplit, hTexts⟩
      rcases textLines_of_split record records hWrites
          hSplit with
        ⟨strings', hRead', hTexts'⟩
      rw [verify_eq_ok_iff]
      constructor
      · rintro ⟨strings'', recs', hRead'', hDecode', _, hn'⟩
        rw [hRead'] at hRead''
        cases hRead''
        rw [hTexts'] at hDecode'
        by_contra hTorn
        rcases decode_of_torn hFails hRead hSplit hTexts
            hDecode hTorn hDecode' with ⟨hNil, hLengths⟩
        have hOne : calls.length = 1 := by
          rw [← hLength, hNil]
          rfl
        rw [hOne, hn] at hn'
        exact ofNat_length_ne hLengths hn'.symm
      · intro hClean
        refine
          ⟨strings', recs ++ record :: records, hRead', ?_,
            ?_, ?_⟩
        · rw [hTexts']
          exact
            decode_of_clean hWrites hSpace hRead hSplit
              hTexts hDecode hClean
        · exact
            (linked_append initialState recs
              (record :: records)).mpr ⟨hLinked, hNew⟩
        · rw [hn, List.length_append, UInt64.ofNat_add,
            hLength]

/-
  After a start, calls in any order leave a file that is
  accepted with one record more for each call, and that the
  server can start from again, exactly when the file ended
  cleanly.
-/
theorem verify_auditAll_iff_endsClean
    (digest : AuditContent → String)
    (codec : JsonCodec AuditRecord)
    (hWrites : ∀ r, codec.WritesLine r)
    (hSpace : codec.SkipsSpace)
    (hFails : codec.PrefixFails)
    (nodeName : String)
    (file : Option Bytes)
    (n : UInt64)
    (hVerify : verify digest codec file = .ok n)
    (calls : List AuditCall)
    (hCalls : calls ≠ []) :
    ∃ state,
      readLastState digest codec file = .ok state ∧
        (Accepted digest codec
            (some
              (auditAll digest codec nodeName
                (state, openFile file) calls).2)
            (n + UInt64.ofNat calls.length) ↔
          EndsClean codec (openFile file)) := by
  rw [← (verify_openFile file).1] at hVerify
  rw [← (verify_openFile file).2]
  rcases verify_auditAll_iff nodeName hWrites hSpace hFails
      hVerify hCalls with
    ⟨state, hState, hIff⟩
  refine ⟨state, hState, ?_⟩
  rw [← hIff]
  constructor
  · rintro ⟨hAccepted, _⟩
    exact hAccepted
  · intro hAccepted
    rcases (verify_eq_ok_iff _ _).mp hAccepted with
      ⟨strings, recs, hRead, hDecode, _, _⟩
    exact
      ⟨hAccepted, _,
        readLastState_of_verify hAccepted hRead hDecode⟩

end Audit

end Kron

------------------------------------------------------------
-- Two Calls Of A Worker
------------------------------------------------------------

namespace Kron

deriving instance Countable for AuditContent
deriving instance Countable for AuditRecord

namespace Audit

open Text
open AppendOnlyLog
open JsonCodec

/- A worker acts on 10 June 2026 at ten in the morning. -/
def workerCall
    (action : String) : AuditCall where
  auth :=
    some
      { actor := "worker"
        role := .worker
        tenantId := some "tenant-a" }
  action := action
  outcome := "ok"
  status := 200
  reason := none
  now := 1781085600

def pollHash : String :=
  "1879892150bb537f5e73c424983beff9" ++
    "dbcce95d1765c28500b1ce47ac00f396"

def succeedHash : String :=
  "16b41a2ae641e29661c509af9ef47fa8" ++
    "cb13dab82ac363b7fe15409ccd4c9b57"

/- The SHA-256 of the two records below. -/
def workerDigest
    (content : AuditContent) : String :=
  if content.seq = 1 then
    pollHash
  else if content.seq = 2 then
    succeedHash
  else
    ""

def pollRecord : AuditRecord :=
  recordOf workerDigest "n1" initialState
    (workerCall "worker.poll")

def succeedRecord : AuditRecord :=
  recordOf workerDigest "n1"
    { seq := 1
      hash := pollHash } (workerCall "run.succeed")

/- The members of a line. -/
def workerMembers
    (seq action prevHash hash : String) : String :=
  "\"seq\":" ++ seq ++
    ",\"ts\":\"2026-06-10T10:00:00Z\"," ++
    "\"node_id\":\"n1\",\"action\":\"" ++ action ++
    "\",\"outcome\":\"ok\",\"status\":200," ++
    "\"actor\":\"worker\",\"role\":\"worker\"," ++
    "\"tenant_id\":\"tenant-a\",\"reason\":null," ++
    "\"prev_hash\":\"" ++ prevHash ++
    "\",\"hash\":\"" ++ hash ++ "\""

def workerRows : List (AuditRecord × String) :=
  [(pollRecord,
      workerMembers "1" "worker.poll" "" pollHash),
    (succeedRecord,
      workerMembers "2" "run.succeed" pollHash
        succeedHash)]

theorem workerRows_bytes :
    (∀ bs ∈ objectBytes workerRows,
        35 ∉ bs ∧ newline ∉ bs) ∧
      (objectBytes workerRows).Pairwise SuffixFree := by
  simp only [objectBytes, workerRows, List.map_cons,
    List.map_nil, List.forall_mem_cons,
    List.pairwise_cons]
  unfold braces workerMembers
  simp only [utf8_append]
  decide +kernel

theorem workerRows_ok :
    TableOk (objectTable workerRows) :=
  tableOk_of_bytes
    (fun bs hbs => (workerRows_bytes.1 bs hbs).1)
    workerRows_bytes.2

/- A codec that writes the two records as the real one. -/
noncomputable def workerCodec : JsonCodec AuditRecord :=
  strictCodec (tableCodec (objectTable workerRows))

theorem workerCodec_writesLine
    (record : AuditRecord) :
    workerCodec.WritesLine record := by
  apply strictCodec_writesLine
  apply tableCodec_writesLine workerRows_ok
  intro row hRow
  rcases List.mem_map.mp hRow with ⟨r, hr, rfl⟩
  exact
    (workerRows_bytes.1 _
      (List.mem_map.mpr ⟨r, hr, rfl⟩)).2

theorem workerCodec_skipsSpace :
    workerCodec.SkipsSpace :=
  strictCodec_skipsSpace workerRows_ok

theorem workerCodec_prefixFails :
    workerCodec.PrefixFails :=
  strictCodec_prefixFails workerRows_ok

theorem endsClean_nil :
    EndsClean workerCodec [] := by
  refine ⟨⟨"", ?_, by decide⟩, ?_⟩
  · have hLine : lastLine [] = utf8 "" := by
      decide +kernel
    rw [hLine, fromUtf8_utf8]
  · intro t hLast
    cases hLast

/- Two calls on a server that starts without a file. -/
theorem verify_workerCalls :
    ∃ state,
      readLastState workerDigest workerCodec none =
          .ok state ∧
        Accepted workerDigest workerCodec
          (some
            (auditAll workerDigest workerCodec "n1"
              (state, openFile none)
              [workerCall "worker.poll",
                workerCall "run.succeed"]).2)
          (0 + UInt64.ofNat 2) := by
  rcases verify_auditAll_iff_endsClean workerDigest
      workerCodec workerCodec_writesLine
      workerCodec_skipsSpace workerCodec_prefixFails "n1"
      none 0 rfl
      [workerCall "worker.poll", workerCall "run.succeed"]
      (by simp) with
    ⟨state, hState, hIff⟩
  exact ⟨state, hState, hIff.mpr endsClean_nil⟩

/- What a crash left of the first record. -/
def tornLine : String :=
  "\x7b\"seq\":"

theorem tornLine_isEof :
    ∃ e,
      workerCodec.fromText tornLine = .error e ∧
        e.isEof = true := by
  have hChars :
      tableChars (objectTable workerRows) pollRecord =
        (braces
          (workerMembers "1" "worker.poll" ""
            pollHash)).toList := by
    simp [tableChars, objectTable, workerRows]
  have hEdges : edgesOk tornLine = true := by
    decide +kernel
  simp only [workerCodec, strictCodec]
  rw [if_pos hEdges]
  apply tableCodec_fromText_eof workerRows_ok
    (a := pollRecord)
  · rw [hChars]
    decide +kernel
  · decide +kernel

theorem verify_tornLine :
    verify workerDigest workerCodec
        (some (utf8 tornLine)) = .ok 0 := by
  rw [verify_eq_ok_iff]
  refine ⟨[tornLine], [], ?_, ?_, trivial, rfl⟩
  · rw [readStrings_eq_ok_iff]
    decide +kernel
  · rcases tornLine_isEof with ⟨e, hErr, hIsEof⟩
    have hTexts : textLines [tornLine] = [tornLine] := by
      decide +kernel
    rw [hTexts]
    simp [decodeAll, hErr, hIsEof]

theorem not_endsClean_tornLine :
    ¬ EndsClean workerCodec (utf8 tornLine) := by
  rintro ⟨⟨s, hLast, hBlank⟩, _⟩
  have hLine :
      lastLine (utf8 tornLine) = utf8 tornLine := by
    decide +kernel
  rw [hLine, fromUtf8_utf8] at hLast
  cases hLast
  revert hBlank
  decide +kernel

/-
  After a crash that cut the first record short the file is
  accepted as empty, and the record of the next call is not
  accepted.
-/
theorem not_accepted_after_tornLine :
    verify workerDigest workerCodec
          (some (utf8 tornLine)) = .ok 0 ∧
      ∃ state,
        readLastState workerDigest workerCodec
            (some (utf8 tornLine)) = .ok state ∧
          ¬ Accepted workerDigest workerCodec
              (some
                (auditAll workerDigest workerCodec "n1"
                  (state, openFile (some (utf8 tornLine)))
                  [workerCall "worker.poll"]).2)
              (0 + UInt64.ofNat 1) := by
  refine ⟨verify_tornLine, ?_⟩
  rcases verify_auditAll_iff "n1" workerCodec_writesLine
      workerCodec_skipsSpace workerCodec_prefixFails
      verify_tornLine
      (List.cons_ne_nil (workerCall "worker.poll") []) with
    ⟨state, hState, hIff⟩
  refine ⟨state, hState, ?_⟩
  rintro ⟨hVerify, _⟩
  exact not_endsClean_tornLine (hIff.mp hVerify)

end Audit

end Kron
