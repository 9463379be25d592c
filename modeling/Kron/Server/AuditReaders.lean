import Kron.Server.Audit

/-
  The three readers of the audit log.

  `verify` and `read_last_state_unverified` tolerate a last
  record that was cut short; `read_records`, behind the
  `tail` and `query` commands, parses every line.

  Key definitions include:
    * `Kron.Audit.readRecords`
    * `Kron.Audit.tailRecords`
    * `Kron.Audit.queryRecords`
    * `Kron.Audit.ReadersAgree`
    * `Kron.Audit.LastRecordWhole`

  Key theorems include:
    * `Kron.Audit.readRecords_eq_ok_iff`
    * `Kron.Audit.readLastStateUnverified_of_verify`
    * `Kron.Audit.readers_agree_iff`
-/

------------------------------------------------------------
-- The Commands
------------------------------------------------------------

namespace Kron

namespace Audit

open Text
open AppendOnlyLog

variable (codec : JsonCodec AuditRecord)

/- The loop of `read_records`, over the lines as bytes. -/
def readRecordsLoop :
    List Bytes → Except String (List AuditRecord)
| [] => .ok []
| line :: rest =>
    match fromUtf8 line with
    | none => .error "stream did not contain valid UTF-8"
    | some s =>
        if trim s = "" then
          readRecordsLoop rest
        else
          match codec.fromText s with
          | .error e => .error e.message
          | .ok record =>
              (readRecordsLoop rest).map (record :: ·)

/- `read_records`; `none` is a missing file. -/
def readRecords
    (file : Option Bytes) :
    Except String (List AuditRecord) :=
  match file with
  | none => .ok []
  | some bytes => readRecordsLoop codec (bufLines bytes)

/- What `tail` prints before it follows the file. -/
def tailRecords
    (file : Option Bytes)
    (limit : Nat) : Except String (List AuditRecord) :=
  (readRecords codec file).map fun records =>
    records.drop (records.length - limit)

/- What `query` prints, with its bounds already parsed. -/
def queryRecords
    (file : Option Bytes)
    (actor action : Option String)
    (fromBound toBound : Option DateTime) :
    Except String (List AuditRecord) :=
  (readRecords codec file).map fun records =>
    records.filter fun record =>
      actor.all (record.actor == ·) &&
        action.all (record.action == ·) &&
        fromBound.all (decide <| · ≤ record.ts) &&
        toBound.all (decide <| record.ts ≤ ·)

variable {codec}

/- Every line that is not blank must parse. -/
theorem readRecordsLoop_eq_ok_iff
    {strings : List String}
    {recs : List AuditRecord} :
    readRecordsLoop codec (strings.map utf8) = .ok recs ↔
      codec.Parses (textLines strings) recs := by
  induction strings generalizing recs with
  | nil =>
      unfold JsonCodec.Parses
      simp [readRecordsLoop, textLines, eq_comm]
  | cons line rest ih =>
      simp only [List.map_cons, readRecordsLoop,
        fromUtf8_utf8]
      by_cases hLine : trim line = ""
      · rw [textLines_cons_of_blank rest hLine,
          if_pos hLine]
        exact ih
      · rw [textLines_cons_of_text rest hLine,
          if_neg hLine]
        cases hParse : codec.fromText line with
        | error e =>
            simp only [reduceCtorEq, false_iff]
            intro hParses
            cases hParses with
            | cons hHead _ =>
                rw [hParse] at hHead
                cases hHead
        | ok record =>
            simp only
            constructor
            · intro hMap
              cases hRest :
                  readRecordsLoop codec
                    (rest.map utf8) with
              | error message =>
                  rw [hRest] at hMap
                  cases hMap
              | ok tail =>
                  rw [hRest] at hMap
                  cases hMap
                  exact .cons hParse (ih.mp hRest)
            · intro hParses
              cases hParses with
              | cons hHead hTail =>
                  rw [hParse] at hHead
                  cases hHead
                  rw [ih.mpr hTail]
                  rfl

/- A file that can be read is listed when it parses. -/
theorem readRecords_eq_ok_iff
    {bytes : Bytes}
    {strings : List String}
    {recs : List AuditRecord}
    (hRead : readStrings bytes = .ok strings) :
    readRecords codec (some bytes) = .ok recs ↔
      codec.Parses (textLines strings) recs := by
  rw [readRecords,
    (readStrings_eq_ok_iff bytes strings).mp hRead]
  exact readRecordsLoop_eq_ok_iff

end Audit

end Kron

------------------------------------------------------------
-- Agreement
------------------------------------------------------------

namespace Kron

namespace Audit

open Text
open AppendOnlyLog
open JsonCodec

/-
  The records of the lines, without a last one that was cut
  short.
-/
def verifiedRecords
    (codec : JsonCodec AuditRecord)
    (file : Option Bytes) : List AuditRecord :=
  match readStrings (openFile file) with
  | .error _ => []
  | .ok strings =>
      (codec.decodeAll (textLines strings)).getD []

/-
  The other readers find the `n` records of a file that
  `verify` accepts: they are chained, the state is that of
  the last one, and all are listed.
-/
structure ReadersAgree
    (digest : AuditContent → String)
    (codec : JsonCodec AuditRecord)
    (file : Option Bytes)
    (n : UInt64) : Prop where
  linked :
    Linked digest "" 1 (verifiedRecords codec file)
  count :
    n = UInt64.ofNat (verifiedRecords codec file).length
  state :
    readLastStateUnverified codec file =
      .ok
        { seq := n
          hash :=
            ((verifiedRecords codec file).getLast?.map
              AuditRecord.hash).getD "" }
  listed :
    readRecords codec file =
      .ok (verifiedRecords codec file)

/- The last line that is not blank is a whole record. -/
def LastRecordWhole
    (codec : JsonCodec AuditRecord)
    (file : Option Bytes) : Prop :=
  ∀ t, lastText (openFile file) = some t →
    ∃ record, codec.fromText t = .ok record

variable {digest : AuditContent → String}
variable {codec : JsonCodec AuditRecord}
variable {file : Option Bytes}
variable {n : UInt64}

/- The state after a chain is that of its last record. -/
theorem stateAfter_of_linked
    {state : AuditState}
    {recs : List AuditRecord}
    (hLinked :
      Linked digest state.hash (state.seq + 1) recs) :
    stateAfter state recs =
      { seq := state.seq + UInt64.ofNat recs.length
        hash :=
          (recs.getLast?.map AuditRecord.hash).getD
            state.hash } := by
  induction recs generalizing state with
  | nil => simp [stateAfter]
  | cons record recs ih =>
      rcases hLinked with ⟨hSeq, _, _, hRest⟩
      have hTail :
          stateAfter state (record :: recs) =
            stateAfter
              { seq := record.seq
                hash := record.hash } recs := rfl
      have hSum :
          state.seq + 1 + UInt64.ofNat recs.length =
            state.seq +
              UInt64.ofNat (record :: recs).length := by
        rw [List.length_cons, UInt64.ofNat_add, add_assoc,
          add_comm (UInt64.ofNat recs.length)]
        rfl
      rw [← hSeq] at hRest
      rw [hTail, ih hRest, hSeq, hSum, List.getLast?_cons]
      cases hLast : recs.getLast? <;> simp

theorem lastText_of_read
    {bytes : Bytes}
    {strings : List String}
    (hRead : readStrings bytes = .ok strings) :
    lastText bytes = (textLines strings).getLast? := by
  simp [lastText, hRead]

/- What the readers have in common on an accepted file. -/
theorem verified_of_verify
    (hVerify : verify digest codec file = .ok n) :
    ∃ strings,
      readStrings (openFile file) = .ok strings ∧
        codec.decodeAll (textLines strings) =
          some (verifiedRecords codec file) ∧
        Linked digest "" 1 (verifiedRecords codec file) ∧
        n =
          UInt64.ofNat
            (verifiedRecords codec file).length := by
  rw [← (verify_openFile file).1] at hVerify
  rcases (verify_eq_ok_iff _ _).mp hVerify with
    ⟨strings, recs, hRead, hDecode, hLinked, hn⟩
  have hRecords : verifiedRecords codec file = recs := by
    simp [verifiedRecords, hRead, hDecode]
  rw [hRecords]
  exact ⟨strings, hRead, hDecode, hLinked, hn⟩

theorem openFile_some
    (bytes : Bytes) :
    openFile (some bytes) = bytes := rfl

/- A missing file is read as an empty one. -/
theorem readers_openFile :
    readLastStateUnverified codec (some (openFile file)) =
        readLastStateUnverified codec file ∧
      readRecords codec (some (openFile file)) =
        readRecords codec file := by
  cases file with
  | none => exact ⟨rfl, rfl⟩
  | some bytes => exact ⟨rfl, rfl⟩

/- The state is read from every accepted file. -/
theorem readLastStateUnverified_of_verify
    (hVerify : verify digest codec file = .ok n) :
    readLastStateUnverified codec file =
      .ok
        { seq := n
          hash :=
            ((verifiedRecords codec file).getLast?.map
              AuditRecord.hash).getD "" } := by
  rcases verified_of_verify hVerify with
    ⟨strings, hRead, hDecode, hLinked, hn⟩
  have hLast :
      rposition hasText strings = lastFrom 0 strings := by
    simp [lastFrom]
  have hState :=
    @stateAfter_of_linked digest initialState _ hLinked
  rw [← readers_openFile.1]
  simp only [readLastStateUnverified, hRead, hLast]
  rw [lastStateLoop_of_decode 0 strings initialState
    hDecode, hState, hn]
  simp [initialState]

/- Texts that all parse have a last one that parses. -/
theorem parses_iff_last
    {ts : List String}
    {as : List AuditRecord}
    (hDecode : codec.decodeAll ts = some as) :
    codec.Parses ts as ↔
      ∀ t, ts.getLast? = some t →
        ∃ record, codec.fromText t = .ok record := by
  constructor
  · intro hParses t hLast
    exact hParses.ok_of_mem (List.mem_of_getLast? hLast)
  · intro hWhole
    rcases decodeAll_cases hDecode with
      hAll | ⟨xs, t, e, hEq, _, hError, _⟩
    · exact hAll
    · rcases hWhole t (by rw [hEq, List.getLast?_concat]) with
        ⟨record, hOk⟩
      rw [hError] at hOk
      cases hOk

/-
  The readers agree on a file that verifies if and only if
  its last record is whole.
-/
theorem readers_agree_iff
    (digest : AuditContent → String)
    (codec : JsonCodec AuditRecord)
    (file : Option Bytes)
    (n : UInt64)
    (hVerify : verify digest codec file = .ok n) :
    ReadersAgree digest codec file n ↔
      LastRecordWhole codec file := by
  rcases verified_of_verify hVerify with
    ⟨strings, hRead, hDecode, hLinked, hn⟩
  have hListed :
      readRecords codec file =
          .ok (verifiedRecords codec file) ↔
        LastRecordWhole codec file := by
    rw [← readers_openFile.2, readRecords_eq_ok_iff hRead,
      parses_iff_last hDecode, LastRecordWhole,
      lastText_of_read hRead]
  constructor
  · exact fun hAgree => hListed.mp hAgree.listed
  · intro hWhole
    exact
      ⟨hLinked, hn, readLastStateUnverified_of_verify hVerify,
        hListed.mpr hWhole⟩

end Audit

end Kron

------------------------------------------------------------
-- Two Files
------------------------------------------------------------

namespace Kron

namespace Audit

open Text
open AppendOnlyLog
open JsonCodec

/- The file that two calls of a worker have written. -/
noncomputable def workerLog : Bytes :=
  [] ++
    [pollRecord, succeedRecord].flatMap
      (encodeRecord workerCodec)

/- It verifies, and all readers find its two records. -/
theorem readers_agree_iff_workerLog :
    verify workerDigest workerCodec (some workerLog) =
        .ok 2 ∧
      ReadersAgree workerDigest workerCodec
        (some workerLog) 2 := by
  have hSplit : Split [] [] "" :=
    ⟨by decide +kernel, by decide +kernel⟩
  rcases textLines_of_split pollRecord [succeedRecord]
      workerCodec_writesLine hSplit with
    ⟨strings, hRead, hTexts⟩
  have hPair :
      textLines strings =
        [workerCodec.toText pollRecord,
          workerCodec.toText succeedRecord] := by
    have hNil : textLines [] = [] := rfl
    rw [hTexts, hNil, String.empty_append, List.nil_append,
      List.map_singleton]
  have hParses :
      workerCodec.Parses (textLines strings)
        [pollRecord, succeedRecord] := by
    rw [hPair]
    exact
      .cons (workerCodec_writesLine pollRecord).decodes
        (.cons (workerCodec_writesLine succeedRecord).decodes
          .nil)
  have hVerify :
      verify workerDigest workerCodec (some workerLog) =
        .ok 2 := by
    rw [verify_eq_ok_iff]
    exact
      ⟨strings, _, hRead, decodeAll_of_parses hParses,
        linked_recordsOf "n1" initialState
          [workerCall "worker.poll",
            workerCall "run.succeed"], rfl⟩
  refine ⟨hVerify, ?_⟩
  rw [readers_agree_iff workerDigest workerCodec
    (some workerLog) 2 hVerify]
  intro t hLast
  rw [openFile_some, workerLog, lastText_of_read hRead]
    at hLast
  exact hParses.ok_of_mem (List.mem_of_getLast? hLast)

/- A file whose only record was cut short is not listed. -/
theorem readers_disagree_tornLine :
    verify workerDigest workerCodec
          (some (utf8 tornLine)) = .ok 0 ∧
      readLastStateUnverified workerCodec
          (some (utf8 tornLine)) = .ok initialState ∧
      (∃ message,
        readRecords workerCodec (some (utf8 tornLine)) =
          .error message) ∧
      ¬ ReadersAgree workerDigest workerCodec
          (some (utf8 tornLine)) 0 := by
  rcases tornLine_isEof with ⟨e, hError, hEof⟩
  have hLines :
      bufLines (utf8 tornLine) = [tornLine].map utf8 := by
    decide +kernel
  have hText : trim tornLine ≠ "" := by
    decide +kernel
  have hListed :
      readRecords workerCodec (some (utf8 tornLine)) =
        .error e.message := by
    simp only [readRecords, hLines, List.map_cons,
      readRecordsLoop, fromUtf8_utf8, if_neg hText, hError]
  have hState :
      readLastStateUnverified workerCodec
          (some (utf8 tornLine)) =
        .ok initialState := by
    have hRead :
        readStrings (utf8 tornLine) = .ok [tornLine] :=
      (readStrings_eq_ok_iff _ _).mpr hLines
    have hLast : rposition hasText [tornLine] = some 0 := by
      decide +kernel
    simp only [readLastStateUnverified, hRead, hLast,
      lastStateLoop, if_neg hText, hError, hEof, and_self,
      if_true]
  refine ⟨verify_tornLine, hState, ⟨_, hListed⟩, ?_⟩
  intro hAgree
  have hOk := hAgree.listed
  rw [hListed] at hOk
  cases hOk

end Audit

end Kron
