import Kron.Server.StateMachine
import Kron.Lib.Codec
import Kron.Lib.Digits
import Kron.Lib.FileSystem

/-
  The Raft log of a server in segment files.

  A record is a header of fixed length and the JSON of one
  entry. The writer fills a segment until it has reached its
  size, then renames it after its first and last index and
  opens the next one; the manifest lists the segments.

  Key definitions include:
    * `Kron.KronEntry`
    * `Kron.encodeLogRecord`
    * `Kron.readSegmentFile`
    * `Kron.segmentFileName`
    * `Kron.writeSegments`
    * `Kron.readLogSegments`

  Key theorems include:
    * `Kron.readSegmentFile_encode`
    * `Kron.segmentFileName_inj`
    * `Kron.writeSegments_chunked`
    * `Kron.readLogSegments_of_chunks`
-/

------------------------------------------------------------
-- Entries And Errors
------------------------------------------------------------

namespace Kron

/- What an entry of the Raft log carries. -/
inductive EntryPayload where
| blank
| normal (command : RaftCommand)
| membership (membership : Membership)
deriving DecidableEq

structure KronEntry where
  logId : LogId
  payload : EntryPayload
deriving DecidableEq

inductive ErrorSubject where
| store
| snapshot
deriving DecidableEq, Repr

inductive ErrorVerb where
| read
| write
deriving DecidableEq, Repr

structure StorageError where
  subject : ErrorSubject
  verb : ErrorVerb
  message : String
deriving DecidableEq, Repr

def corruptStore
    (message : String) : StorageError where
  subject := .store
  verb := .read
  message := message

/- A text that does not parse. -/
def jsonReadError
    (subject : ErrorSubject)
    (e : JsonError) : StorageError where
  subject := subject
  verb := .read
  message := e.message

end Kron

------------------------------------------------------------
-- Records
------------------------------------------------------------

namespace Kron

open Text
open Digits

/- `STORE_FORMAT_VERSION`. -/
def storeFormatVersion : UInt32 :=
  1

/- `LOG_RECORD_MAGIC`: the text `KRLOG001`. -/
def logRecordMagic : Bytes :=
  [75, 82, 76, 79, 71, 48, 48, 49]

/- `LOG_RECORD_HEADER_BYTES`. -/
def logRecordHeaderBytes : Nat :=
  8 + 4 + 8 + 8 + 4 + 8

def checksum32
    (bytes : Bytes) : UInt32 :=
  bytes.foldl
    (fun hash byte =>
      (hash ^^^ byte.toUInt32) * 0x01000193) 0x811c9dc5

/- The JSON of an entry. -/
def payloadOf
    (codec : JsonCodec KronEntry)
    (entry : KronEntry) : Bytes :=
  utf8 (codec.toText entry)

def encodeLogRecord
    (codec : JsonCodec KronEntry)
    (entry : KronEntry) : Bytes :=
  let payload := payloadOf codec entry
  logRecordMagic ++
    leBytes 4 storeFormatVersion.toNat ++
    leBytes 8 entry.logId.term.toNat ++
    leBytes 8 entry.logId.index.toNat ++
    leBytes 4 (checksum32 payload).toNat ++
    leBytes 8 (UInt64.ofNat payload.length).toNat ++
    payload

/- Read a word at the offset; the bytes after it remain. -/
def readU32
    (bytes : Bytes) :
    Except StorageError (UInt32 × Bytes) :=
  if bytes.length < 4 then
    .error (corruptStore "truncated u32")
  else
    .ok
      (UInt32.ofNat (leValue (bytes.take 4)), bytes.drop 4)

def readU64
    (bytes : Bytes) :
    Except StorageError (UInt64 × Bytes) :=
  if bytes.length < 8 then
    .error (corruptStore "truncated u64")
  else
    .ok
      (UInt64.ofNat (leValue (bytes.take 8)), bytes.drop 8)

/- The header of a record after its magic and version. -/
structure RecordHeader where
  term : UInt64
  index : UInt64
  checksum : UInt32
  len : UInt64
deriving DecidableEq, Repr

/- Read a header from the version on. -/
def readHeader
    (bytes : Bytes) :
    Except StorageError (RecordHeader × Bytes) := do
  let (version, bytes) ← readU32 bytes
  if version ≠ storeFormatVersion then
    throw
      (corruptStore "unsupported raft log record version")
  let (term, bytes) ← readU64 bytes
  let (index, bytes) ← readU64 bytes
  let (checksum, bytes) ← readU32 bytes
  let (len, bytes) ← readU64 bytes
  let header : RecordHeader :=
    { term := term
      index := index
      checksum := checksum
      len := len }
  return (header, bytes)

/-
  Read the payload that a header announces. A payload that
  is cut short ends the segment, except in its first record.
-/
def readPayload
    (codec : JsonCodec KronEntry)
    (first : Bool)
    (header : RecordHeader)
    (bytes : Bytes) :
    Except StorageError (Option (KronEntry × Bytes)) :=
  if bytes.length < header.len.toNat then
    if first then
      .error
        (corruptStore "truncated raft log record payload")
    else
      .ok none
  else
    let payload := bytes.take header.len.toNat
    if checksum32 payload ≠ header.checksum then
      .error
        (corruptStore "raft log record checksum mismatch")
    else
      match codec.fromReader payload with
      | .error e => .error (jsonReadError .store e)
      | .ok entry =>
          if entry.logId.index ≠ header.index ∨
              entry.logId.term ≠ header.term then
            .error
              (corruptStore
                "raft log record header does not match entry")
          else
            .ok
              (some (entry, bytes.drop header.len.toNat))

/- Read one record; `none` is the tolerated end. -/
def readRecord
    (codec : JsonCodec KronEntry)
    (first : Bool)
    (bytes : Bytes) :
    Except StorageError (Option (KronEntry × Bytes)) :=
  if bytes.length < logRecordHeaderBytes then
    if first then
      .error
        (corruptStore "truncated raft log record header")
    else
      .ok none
  else if bytes.take 8 ≠ logRecordMagic then
    .error (corruptStore "invalid raft log record magic")
  else
    match readHeader (bytes.drop 8) with
    | .error e => .error e
    | .ok (header, rest) =>
        readPayload codec first header rest

theorem readU32_length
    {bytes rest : Bytes}
    {n : UInt32}
    (hRead : readU32 bytes = .ok (n, rest)) :
    rest.length ≤ bytes.length := by
  unfold readU32 at hRead
  split at hRead
  · cases hRead
  · cases hRead
    simp

theorem readU64_length
    {bytes rest : Bytes}
    {n : UInt64}
    (hRead : readU64 bytes = .ok (n, rest)) :
    rest.length ≤ bytes.length := by
  unfold readU64 at hRead
  split at hRead
  · cases hRead
  · cases hRead
    simp

theorem readHeader_length
    {bytes rest : Bytes}
    {header : RecordHeader}
    (hRead : readHeader bytes = .ok (header, rest)) :
    rest.length ≤ bytes.length := by
  simp only [readHeader, bind, Except.bind] at hRead
  split at hRead
  · cases hRead
  · rename_i w₁ hVersion
    split at hRead
    · cases hRead
    · split at hRead
      · cases hRead
      · rename_i w₂ hTerm
        split at hRead
        · cases hRead
        · rename_i w₃ hIndex
          split at hRead
          · cases hRead
          · rename_i w₄ hChecksum
            split at hRead
            · cases hRead
            · rename_i w₅ hLen
              cases hRead
              calc
                w₅.2.length ≤ w₄.2.length :=
                  readU64_length hLen
                _ ≤ w₃.2.length :=
                  readU32_length hChecksum
                _ ≤ w₂.2.length := readU64_length hIndex
                _ ≤ w₁.2.length := readU64_length hTerm
                _ ≤ bytes.length :=
                  readU32_length hVersion

theorem readPayload_length
    {codec : JsonCodec KronEntry}
    {first : Bool}
    {header : RecordHeader}
    {bytes rest : Bytes}
    {entry : KronEntry}
    (hRead :
      readPayload codec first header bytes =
        .ok (some (entry, rest))) :
    rest.length ≤ bytes.length := by
  simp only [readPayload] at hRead
  split at hRead
  · split at hRead
    · cases hRead
    · cases hRead
  · split at hRead
    · cases hRead
    · split at hRead
      · cases hRead
      · split at hRead
        · cases hRead
        · cases hRead
          simp

/- A record takes bytes, so that the reader comes to an end. -/
theorem readRecord_length
    {codec : JsonCodec KronEntry}
    {first : Bool}
    {bytes rest : Bytes}
    {entry : KronEntry}
    (hRead :
      readRecord codec first bytes =
        .ok (some (entry, rest))) :
    rest.length < bytes.length := by
  simp only [readRecord] at hRead
  split at hRead
  · split at hRead
    · cases hRead
    · cases hRead
  · rename_i hLong
    split at hRead
    · cases hRead
    · split at hRead
      · cases hRead
      · rename_i header bytes' hHeader
        have hFrom := readHeader_length hHeader
        have hTo := readPayload_length hRead
        simp only [logRecordHeaderBytes,
          List.length_drop] at hLong hFrom
        omega

/-
  The loop of `read_segment_file` over the bytes from the
  offset on.
-/
def readRecords
    (codec : JsonCodec KronEntry)
    (bytes : Bytes)
    (entries : List KronEntry) :
    Except StorageError (List KronEntry) :=
  if bytes = [] then
    .ok entries
  else
    match _hRead :
        readRecord codec entries.isEmpty bytes with
    | .error e => .error e
    | .ok none => .ok entries
    | .ok (some (entry, rest)) =>
        if bytes.length = rest.length then
          .error (corruptStore "empty raft log record")
        else
          readRecords codec rest (entries ++ [entry])
termination_by bytes.length
decreasing_by exact readRecord_length _hRead

def readSegmentFile
    (codec : JsonCodec KronEntry)
    (bytes : Bytes) :
    Except StorageError (List KronEntry) :=
  readRecords codec bytes []

end Kron

------------------------------------------------------------
-- Records Are Read Back
------------------------------------------------------------

namespace Kron

open Text
open Digits

variable {codec : JsonCodec KronEntry}

/- A word reads as the number that was written. -/
theorem ofNat32_leValue
    (n : UInt32) :
    UInt32.ofNat (leValue (leBytes 4 n.toNat)) = n := by
  rw [leValue_leBytes n.toNat_lt, UInt32.ofNat_toNat]

theorem ofNat64_leValue
    (n : UInt64) :
    UInt64.ofNat (leValue (leBytes 8 n.toNat)) = n := by
  rw [leValue_leBytes n.toNat_lt, UInt64.ofNat_toNat]

theorem readU32_leBytes
    (n : UInt32)
    (rest : Bytes) :
    readU32 (leBytes 4 n.toNat ++ rest) =
      .ok (n, rest) := by
  have hLength : (leBytes 4 n.toNat).length = 4 :=
    length_leBytes 4 n.toNat
  unfold readU32
  rw [if_neg (by simp), List.take_left' hLength,
    List.drop_left' hLength, ofNat32_leValue]

theorem readU64_leBytes
    (n : UInt64)
    (rest : Bytes) :
    readU64 (leBytes 8 n.toNat ++ rest) =
      .ok (n, rest) := by
  have hLength : (leBytes 8 n.toNat).length = 8 :=
    length_leBytes 8 n.toNat
  unfold readU64
  rw [if_neg (by simp), List.take_left' hLength,
    List.drop_left' hLength, ofNat64_leValue]

/- A payload that fits in a vector of bytes. -/
def FitsVec
    (codec : JsonCodec KronEntry)
    (entry : KronEntry) : Prop :=
  (payloadOf codec entry).length < 2 ^ 63

instance
    (codec : JsonCodec KronEntry)
    (entry : KronEntry) :
    Decidable (FitsVec codec entry) :=
  inferInstanceAs (Decidable (_ < _))

/- A written record is read, and the bytes after it remain. -/
theorem readRecord_encode
    (hLossless : codec.Lossless)
    {entry : KronEntry}
    (hFits : FitsVec codec entry)
    (first : Bool)
    (rest : Bytes) :
    readRecord codec first
        (encodeLogRecord codec entry ++ rest) =
      .ok (some (entry, rest)) := by
  have hMagic : logRecordMagic.length = 8 := rfl
  have hLen :
      (UInt64.ofNat (payloadOf codec entry).length).toNat =
        (payloadOf codec entry).length := by
    apply UInt64.toNat_ofNat_of_lt'
    unfold FitsVec at hFits
    have hPow : (2 : Nat) ^ 63 < UInt64.size := by decide
    omega
  have hHeader :
      readHeader
          ((encodeLogRecord codec entry ++ rest).drop 8) =
        .ok
          ({ term := entry.logId.term
             index := entry.logId.index
             checksum :=
               checksum32 (payloadOf codec entry)
             len :=
               UInt64.ofNat
                 (payloadOf codec entry).length },
            payloadOf codec entry ++ rest) := by
    simp only [encodeLogRecord, List.append_assoc]
    rw [List.drop_left' hMagic]
    simp only [readHeader, bind, Except.bind,
      readU32_leBytes, readU64_leBytes]
    rfl
  have hPayload :
      codec.fromReader (payloadOf codec entry) =
        .ok entry := by
    unfold payloadOf
    rw [JsonCodec.fromReader_utf8]
    exact hLossless entry
  unfold readRecord
  rw [if_neg, if_neg, hHeader]
  · simp only [readPayload, hLen]
    rw [if_neg (by simp), List.take_left, List.drop_left,
      if_neg (by simp), hPayload]
    simp
  · simp only [encodeLogRecord, List.append_assoc]
    rw [List.take_left' hMagic]
    simp
  · simp [encodeLogRecord, logRecordHeaderBytes,
      hMagic]
    omega

/- Records are read up to the bytes that follow them. -/
theorem readRecords_append
    (hLossless : codec.Lossless)
    {entries : List KronEntry}
    (hFits : ∀ e ∈ entries, FitsVec codec e)
    (before : List KronEntry)
    (rest : Bytes) :
    readRecords codec
        (entries.flatMap (encodeLogRecord codec) ++ rest)
        before =
      readRecords codec rest (before ++ entries) := by
  induction entries generalizing before with
  | nil => simp
  | cons entry entries ih =>
      have hNe :
          (entry :: entries).flatMap
              (encodeLogRecord codec) ++ rest ≠ [] := by
        simp [encodeLogRecord, logRecordMagic]
      rw [readRecords, if_neg hNe, List.flatMap_cons,
        List.append_assoc]
      have hRead :=
        readRecord_encode hLossless
          (hFits entry List.mem_cons_self) before.isEmpty
          (entries.flatMap (encodeLogRecord codec) ++ rest)
      split
      · rename_i e hError
        rw [hRead] at hError
        cases hError
      · rename_i hNone
        rw [hRead] at hNone
        cases hNone
      · rename_i e rest' hSome
        have hLess := readRecord_length hSome
        rw [hRead] at hSome
        cases hSome
        rw [if_neg (by omega), ih]
        · simp
        · intro e hMem
          exact hFits e (List.mem_cons_of_mem _ hMem)

/- A segment gives back the entries written to it. -/
theorem readSegmentFile_encode
    (hLossless : codec.Lossless)
    {entries : List KronEntry}
    (hFits : ∀ e ∈ entries, FitsVec codec e) :
    readSegmentFile codec
        (entries.flatMap (encodeLogRecord codec)) =
      .ok entries := by
  have hRead := readRecords_append hLossless hFits [] []
  rw [List.append_nil, List.nil_append] at hRead
  unfold readSegmentFile
  rw [hRead, readRecords]
  simp

end Kron

------------------------------------------------------------
-- Segments And Their Names
------------------------------------------------------------

namespace Kron

open Text
open Digits
open FileSystem

/- The files below the data directory by path. -/
abbrev StoreDir :=
  Directory String Bytes

structure SegmentMeta where
  firstIndex : UInt64
  lastIndex : UInt64
  file : String
deriving DecidableEq, Repr

def segmentFileName
    (first last : UInt64) : String :=
  String.ofList (hex 16 first.toNat) ++ "-" ++
    String.ofList (hex 16 last.toNat) ++ ".seg"

/- The path of a file of the log directory. -/
def logPath
    (name : String) : String :=
  "raft/log/" ++ name

/- `LOG_SEGMENT_MAX_BYTES`. -/
def logSegmentMaxBytes : Nat :=
  64 * 1024 * 1024

/- The extension of a file name is `seg`. -/
def hasSegExtension
    (name : String) : Bool :=
  ".seg".toList.isSuffixOf name.toList &&
    decide (name.toList ≠ ".seg".toList)

/- The path is that of a segment in the log directory. -/
def isSegmentPath
    (path : String) : Bool :=
  "raft/log/".toList.isPrefixOf path.toList &&
    let name := path.toList.drop 9
    !name.contains '/' &&
      hasSegExtension (String.ofList name)

/- The segments of the log directory. -/
def segmentPaths
    (dir : StoreDir) : List String :=
  dir.keys.filter isSegmentPath

theorem segmentFileName_inj
    {first last first' last' : UInt64}
    (hEq :
      segmentFileName first last =
        segmentFileName first' last') :
    first = first' ∧ last = last' := by
  have hLt : ∀ n : UInt64, n.toNat < 16 ^ 16 :=
    fun n => n.toNat_lt
  have hChars := congrArg String.toList hEq
  simp only [segmentFileName, String.toList_append,
    String.toList_ofList, List.append_assoc] at hChars
  rcases List.append_inj hChars (by simp) with
    ⟨hFirst, hRest⟩
  have hRest' := List.append_cancel_left hRest
  rcases List.append_inj hRest' (by simp) with
    ⟨hLast, _⟩
  exact
    ⟨UInt64.toNat_inj.mp
        (hex_injOn (hLt first) (hLt first') hFirst),
      UInt64.toNat_inj.mp
        (hex_injOn (hLt last) (hLt last') hLast)⟩

theorem logPath_inj
    {name name' : String}
    (hEq : logPath name = logPath name') :
    name = name' :=
  String.append_right_inj "raft/log/" |>.mp hEq

theorem slash_notMem_hex
    (n : Nat) :
    '/' ∉ hex 16 n := by
  intro hMem
  rcases exists_of_mem_hex hMem with ⟨d, hd, hChar⟩
  have hNe : ∀ d < 16, '/' ≠ Nat.digitChar d := by decide
  exact hNe d hd hChar

/- The writer's files are among those that it removes. -/
theorem isSegmentPath_segmentFileName
    (first last : UInt64) :
    isSegmentPath (logPath (segmentFileName first last)) =
      true := by
  have hChars :
      (segmentFileName first last).toList =
        hex 16 first.toNat ++ '-' ::
          (hex 16 last.toNat ++ ".seg".toList) := by
    simp [segmentFileName]
  have hSuffix :
      ".seg".toList <:+
        (segmentFileName first last).toList := by
    refine
      ⟨hex 16 first.toNat ++ '-' ::
        hex 16 last.toNat, ?_⟩
    rw [hChars]
    simp
  have hLong :
      (segmentFileName first last).toList ≠
        ".seg".toList := by
    intro hEq
    have hLength := congrArg List.length hEq
    rw [hChars] at hLength
    simp at hLength
  have hSlash :
      '/' ∉ (segmentFileName first last).toList := by
    rw [hChars]
    simp [slash_notMem_hex]
  have hPath :
      (logPath (segmentFileName first last)).toList =
        "raft/log/".toList ++
          (segmentFileName first last).toList := by
    simp [logPath]
  have hDrop :
      (logPath (segmentFileName first last)).toList.drop
          9 =
        (segmentFileName first last).toList := by
    rw [hPath]
    exact List.drop_left' rfl
  unfold isSegmentPath
  rw [hDrop, hPath]
  simp only [hasSegExtension, String.ofList_toList,
    Bool.and_eq_true, decide_eq_true_eq,
    List.isPrefixOf_iff_prefix,
    List.isSuffixOf_iff_suffix, Bool.not_eq_true',
    List.contains_eq_mem, decide_eq_false_iff_not]
  exact
    ⟨List.prefix_append _ _, hSlash, hSuffix, hLong⟩

end Kron

------------------------------------------------------------
-- The Segment Writer
------------------------------------------------------------

namespace Kron

open Text
open FileSystem

/- The segment that is being written. -/
structure OpenSegment where
  first : UInt64
  last : UInt64
  size : Nat
  content : Bytes
deriving DecidableEq

/-
  The loop of `rewrite_log_segments`: the file operations so
  far, the segments listed so far and the open segment.
-/
structure SegmentWriter where
  ops : List (Op String Bytes)
  segments : List SegmentMeta
  current : Option OpenSegment

namespace SegmentWriter

def empty : SegmentWriter where
  ops := []
  segments := []
  current := none

/- The path of a segment while it is written. -/
def provisionalPath
    (first : UInt64) : String :=
  logPath (segmentFileName first first)

/- Give the open segment its final name and list it. -/
def close
    (w : SegmentWriter) : SegmentWriter :=
  match w.current with
  | none => w
  | some file =>
      let finalName := segmentFileName file.first file.last
      { ops :=
          w.ops ++
            if provisionalPath file.first ≠
                logPath finalName then
              [.rename (provisionalPath file.first)
                (logPath finalName)]
            else
              []
        segments :=
          w.segments ++
            [{ firstIndex := file.first
               lastIndex := file.last
               file := finalName }]
        current := none }

/- Create or truncate the file of a new segment. -/
def openAt
    (w : SegmentWriter)
    (first : UInt64) : SegmentWriter :=
  { w with
    ops := w.ops ++ [.write (provisionalPath first) []]
    current :=
      some
        { first := first
          last := first
          size := 0
          content := [] } }

/- Append a record to the open segment. -/
def append
    (codec : JsonCodec KronEntry)
    (w : SegmentWriter)
    (entry : KronEntry) : SegmentWriter :=
  match w.current with
  | none => w
  | some file =>
      let encoded := encodeLogRecord codec entry
      { w with
        ops :=
          w.ops ++
            [.write (provisionalPath file.first)
              (file.content ++ encoded)]
        current :=
          some
            { file with
              last := entry.logId.index
              size := file.size + encoded.length
              content := file.content ++ encoded } }

/- No segment is open, or the open one has its size. -/
def isFull
    (w : SegmentWriter) : Bool :=
  match w.current with
  | none => true
  | some file => decide (logSegmentMaxBytes ≤ file.size)

/- One turn of the loop. -/
def writeEntry
    (codec : JsonCodec KronEntry)
    (w : SegmentWriter)
    (entry : KronEntry) : SegmentWriter :=
  let w :=
    if w.isFull then
      w.close.openAt entry.logId.index
    else
      w
  w.append codec entry

end SegmentWriter

/- The loop over the log and the last segment. -/
def writeSegments
    (codec : JsonCodec KronEntry)
    (entries : List KronEntry) : SegmentWriter :=
  (entries.foldl (SegmentWriter.writeEntry codec)
    .empty).close

end Kron

------------------------------------------------------------
-- What The Segment Writer Does
------------------------------------------------------------

namespace Kron

open Text
open FileSystem

/- The file of a listed segment holds some entries. -/
structure SegmentHolds
    (codec : JsonCodec KronEntry)
    (dir : StoreDir)
    (segment : SegmentMeta)
    (chunk : List KronEntry) : Prop where
  named :
    segment.file =
      segmentFileName segment.firstIndex segment.lastIndex
  starts :
    ∃ e rest,
      chunk = e :: rest ∧ e.logId.index = segment.firstIndex
  content :
    dir[logPath segment.file]? =
      some (chunk.flatMap (encodeLogRecord codec))

/- Operations that touch segments of the log only. -/
def OnSegments
    (ops : List (Op String Bytes)) : Prop :=
  ∀ op ∈ ops, ∀ path,
    op.Touches path → isSegmentPath path = true

namespace SegmentWriter

/- The open segment holds the entries not yet listed. -/
def CurrentHolds
    (codec : JsonCodec KronEntry)
    (dir : StoreDir)
    (tail : List KronEntry) :
    Option OpenSegment → Prop
| none => tail = []
| some file =>
    file.content =
        tail.flatMap (encodeLogRecord codec) ∧
      dir[provisionalPath file.first]? = some file.content

/-
  The writer has spread `chunks` over the listed segments
  and has `tail` in the open one. `dir` is the directory it
  started from.
-/
structure Wrote
    (codec : JsonCodec KronEntry)
    (dir : StoreDir)
    (w : SegmentWriter)
    (chunks : List (List KronEntry))
    (tail : List KronEntry) : Prop where
  holds :
    List.Forall₂ (SegmentHolds codec (runAll dir w.ops))
      w.segments chunks
  current : CurrentHolds codec (runAll dir w.ops) tail w.current
  firsts :
    ∀ segment ∈ w.segments, ∃ e ∈ chunks.flatten,
      e.logId.index = segment.firstIndex
  open_first :
    ∀ file, w.current = some file →
      ∃ e rest, tail = e :: rest ∧ e.logId.index = file.first
  onSegments : OnSegments w.ops

/- Entries by increasing index. -/
def Ascending
    (entries : List KronEntry) : Prop :=
  entries.Pairwise fun e e' =>
    e.logId.index < e'.logId.index

variable {codec : JsonCodec KronEntry}
variable {dir : StoreDir}

/- Segments with other first indices have other paths. -/
theorem logPath_ne_of_lt
    {segment : SegmentMeta}
    {first : UInt64}
    (last : UInt64)
    (hNamed :
      segment.file =
        segmentFileName segment.firstIndex
          segment.lastIndex)
    (hLt : segment.firstIndex < first) :
    logPath (segmentFileName first last) ≠
      logPath segment.file := by
  intro hEq
  rw [hNamed] at hEq
  have hFirst := (segmentFileName_inj (logPath_inj hEq)).1
  rw [hFirst] at hLt
  exact UInt64.lt_irrefl _ hLt

/- Operations on a later segment keep the listed ones. -/
theorem forall₂_holds_of_later
    {segments : List SegmentMeta}
    {chunks : List (List KronEntry)}
    {first : UInt64}
    {ops : List (Op String Bytes)}
    (hHolds :
      List.Forall₂ (SegmentHolds codec dir) segments chunks)
    (hFirsts : ∀ segment ∈ segments, segment.firstIndex < first)
    (hOps :
      ∀ op ∈ ops, ∀ path, op.Touches path →
        ∃ last, path = logPath (segmentFileName first last)) :
    List.Forall₂ (SegmentHolds codec (runAll dir ops))
      segments chunks := by
  have hBoth := (List.forall₂_and_left _ _).mpr ⟨hFirsts, hHolds⟩
  refine hBoth.imp ?_
  rintro segment chunk ⟨hLt, hSegment⟩
  refine ⟨hSegment.named, hSegment.starts, ?_⟩
  rw [runAll_get_of_untouched dir]
  · exact hSegment.content
  · intro op hOp hTouches
    rcases hOps op hOp _ hTouches with ⟨last, hPath⟩
    exact
      logPath_ne_of_lt last hSegment.named hLt hPath.symm

/- The listed segments start before the open one. -/
theorem Wrote.firstIndex_lt
    {w : SegmentWriter}
    {chunks : List (List KronEntry)}
    {tail : List KronEntry}
    {file : OpenSegment}
    (hWrote : Wrote codec dir w chunks tail)
    (hSorted : Ascending (chunks.flatten ++ tail))
    (hFile : w.current = some file) :
    ∀ segment ∈ w.segments,
      segment.firstIndex < file.first := by
  intro segment hSegment
  rcases hWrote.open_first file hFile with
    ⟨e, rest, hTail, hOpen⟩
  have hMem : e ∈ tail := by
    rw [hTail]
    exact List.mem_cons_self
  rcases hWrote.firsts segment hSegment with
    ⟨e', hMem', hIndex⟩
  rw [← hIndex, ← hOpen]
  exact (List.pairwise_append.mp hSorted).2.2 e' hMem' e hMem

theorem wrote_empty
    (codec : JsonCodec KronEntry)
    (dir : StoreDir) :
    Wrote codec dir .empty [] [] where
  holds := .nil
  current := rfl
  firsts := by
    intro segment hMem
    cases hMem
  open_first := by
    intro file hFile
    cases hFile
  onSegments := by
    intro op hOp
    cases hOp

/- Operations on the files of one segment. -/
def OnFirst
    (first : UInt64)
    (ops : List (Op String Bytes)) : Prop :=
  ∀ op ∈ ops, ∀ path, op.Touches path →
    ∃ last, path = logPath (segmentFileName first last)

theorem OnFirst.onSegments
    {first : UInt64}
    {ops : List (Op String Bytes)}
    (hOps : OnFirst first ops) :
    OnSegments ops := by
  intro op hOp path hTouches
  rcases hOps op hOp path hTouches with ⟨last, rfl⟩
  exact isSegmentPath_segmentFileName first last

theorem onSegments_append
    {ops ops' : List (Op String Bytes)}
    (hOps : OnSegments ops)
    (hOps' : OnSegments ops') :
    OnSegments (ops ++ ops') := by
  intro op hOp
  rcases List.mem_append.mp hOp with hOld | hNew
  · exact hOps op hOld
  · exact hOps' op hNew

theorem onFirst_write
    (first : UInt64)
    (content : Bytes) :
    OnFirst first
      [.write (provisionalPath first) content] := by
  intro op hOp path hTouches
  rw [List.mem_singleton.mp hOp] at hTouches
  exact ⟨first, hTouches.symm⟩

/- Closing lists what the open segment holds. -/
theorem wrote_close
    {w : SegmentWriter}
    {chunks : List (List KronEntry)}
    {tail : List KronEntry}
    {file : OpenSegment}
    (hWrote : Wrote codec dir w chunks tail)
    (hSorted : Ascending (chunks.flatten ++ tail))
    (hFile : w.current = some file) :
    Wrote codec dir w.close (chunks ++ [tail]) [] := by
  rcases hWrote.open_first file hFile with
    ⟨e, rest, hTail, hIndex⟩
  have hMem : e ∈ tail := by
    rw [hTail]
    exact List.mem_cons_self
  have hCurrent := hWrote.current
  rw [hFile] at hCurrent
  rcases hCurrent with ⟨hContent, hGet⟩
  have hFirsts := hWrote.firstIndex_lt hSorted hFile
  have hOnFirst :
      OnFirst file.first
        (if provisionalPath file.first ≠
            logPath
              (segmentFileName file.first file.last) then
          [.rename (provisionalPath file.first)
            (logPath
              (segmentFileName file.first file.last))]
        else
          []) := by
    intro op hOp path hTouches
    split at hOp
    · rw [List.mem_singleton.mp hOp] at hTouches
      rcases hTouches with rfl | rfl
      · exact ⟨file.first, rfl⟩
      · exact ⟨file.last, rfl⟩
    · cases hOp
  simp only [close, hFile]
  constructor
  · rw [runAll_append]
    apply List.rel_append
    · exact
        forall₂_holds_of_later hWrote.holds hFirsts hOnFirst
    · refine
        .cons ⟨rfl, ⟨e, rest, hTail, hIndex⟩, ?_⟩ .nil
      simp only
      split
      · rw [runAll_cons, runAll_nil,
          run_rename_get _ hGet, if_pos rfl, hContent]
      · rename_i hSame
        rw [runAll_nil, ← not_not.mp hSame, hGet, hContent]
  · rfl
  · intro segment hSegment
    rw [List.flatten_append]
    rcases List.mem_append.mp hSegment with hOld | hNew
    · rcases hWrote.firsts segment hOld with
        ⟨e', hMem', hIndex'⟩
      exact ⟨e', List.mem_append_left _ hMem', hIndex'⟩
    · rw [List.mem_singleton.mp hNew]
      refine ⟨e, List.mem_append_right _ ?_, hIndex⟩
      simpa using hMem
  · intro file' hFile'
    cases hFile'
  · exact
      onSegments_append hWrote.onSegments
        hOnFirst.onSegments

/- A record that starts a segment. -/
theorem wrote_openAt_append
    {w : SegmentWriter}
    {chunks : List (List KronEntry)}
    (hWrote : Wrote codec dir w chunks [])
    (entry : KronEntry)
    (hSorted : Ascending (chunks.flatten ++ [entry])) :
    Wrote codec dir
      ((w.openAt entry.logId.index).append codec entry)
      chunks [entry] := by
  have hFirsts :
      ∀ segment ∈ w.segments,
        segment.firstIndex < entry.logId.index := by
    intro segment hSegment
    rcases hWrote.firsts segment hSegment with
      ⟨e', hMem', hIndex⟩
    rw [← hIndex]
    exact
      (List.pairwise_append.mp hSorted).2.2 e' hMem' entry
        List.mem_cons_self
  have hOpen := onFirst_write entry.logId.index []
  have hWrite :=
    onFirst_write entry.logId.index
      ([] ++ encodeLogRecord codec entry)
  simp only [openAt, append]
  constructor
  · rw [runAll_append, runAll_append]
    exact
      forall₂_holds_of_later
        (forall₂_holds_of_later hWrote.holds hFirsts hOpen)
        hFirsts hWrite
  · refine ⟨by simp, ?_⟩
    rw [runAll_append]
    simp [runAll_cons, Op.run]
  · exact hWrote.firsts
  · intro file hFile
    cases hFile
    exact ⟨entry, [], rfl, rfl⟩
  · exact
      onSegments_append
        (onSegments_append hWrote.onSegments
          hOpen.onSegments)
        hWrite.onSegments

/- A record that continues the open segment. -/
theorem wrote_append
    {w : SegmentWriter}
    {chunks : List (List KronEntry)}
    {tail : List KronEntry}
    {file : OpenSegment}
    (hWrote : Wrote codec dir w chunks tail)
    (entry : KronEntry)
    (hSorted : Ascending (chunks.flatten ++ tail))
    (hFile : w.current = some file) :
    Wrote codec dir (w.append codec entry) chunks
      (tail ++ [entry]) := by
  rcases hWrote.open_first file hFile with
    ⟨e, rest, hTail, hIndex⟩
  have hCurrent := hWrote.current
  rw [hFile] at hCurrent
  rcases hCurrent with ⟨hContent, hGet⟩
  have hFirsts := hWrote.firstIndex_lt hSorted hFile
  have hWrite :=
    onFirst_write file.first
      (file.content ++ encodeLogRecord codec entry)
  simp only [append, hFile]
  constructor
  · rw [runAll_append]
    exact
      forall₂_holds_of_later hWrote.holds hFirsts hWrite
  · refine ⟨?_, ?_⟩
    · simp only [hContent, List.flatMap_append,
        List.flatMap_cons, List.flatMap_nil,
        List.append_nil]
    · rw [runAll_append]
      simp [runAll_cons, Op.run]
  · exact hWrote.firsts
  · intro file' hFile'
    cases hFile'
    exact ⟨e, rest ++ [entry], by simp [hTail], hIndex⟩
  · exact
      onSegments_append hWrote.onSegments hWrite.onSegments

/- One turn of the loop writes its entry. -/
theorem wrote_writeEntry
    {w : SegmentWriter}
    {chunks : List (List KronEntry)}
    {tail : List KronEntry}
    (hWrote : Wrote codec dir w chunks tail)
    (entry : KronEntry)
    (hSorted :
      Ascending (chunks.flatten ++ tail ++ [entry])) :
    ∃ chunks' tail',
      Wrote codec dir (w.writeEntry codec entry) chunks'
          tail' ∧
        chunks'.flatten ++ tail' =
          chunks.flatten ++ tail ++ [entry] := by
  have hBefore : Ascending (chunks.flatten ++ tail) :=
    (List.pairwise_append.mp hSorted).1
  cases hCurrent : w.current with
  | none =>
      have hTail : tail = [] := by
        have hHolds := hWrote.current
        rw [hCurrent] at hHolds
        exact hHolds
      subst hTail
      rw [List.append_nil] at hSorted ⊢
      refine ⟨chunks, [entry], ?_, rfl⟩
      have hClose : w.close = w := by
        simp [close, hCurrent]
      simp only [writeEntry, isFull, hCurrent, if_true,
        hClose]
      exact wrote_openAt_append hWrote entry hSorted
  | some file =>
      by_cases hFull : logSegmentMaxBytes ≤ file.size
      · have hFlatten :
            (chunks ++ [tail]).flatten =
              chunks.flatten ++ tail := by
          simp
        rw [← hFlatten] at hSorted ⊢
        refine ⟨chunks ++ [tail], [entry], ?_, rfl⟩
        simp only [writeEntry, isFull, hCurrent, hFull,
          decide_true, if_true]
        exact
          wrote_openAt_append
            (wrote_close hWrote hBefore hCurrent) entry
            hSorted
      · refine ⟨chunks, tail ++ [entry], ?_, by simp⟩
        simp only [writeEntry, isFull, hCurrent, hFull,
          decide_false]
        exact wrote_append hWrote entry hBefore hCurrent

theorem wrote_foldl
    {w : SegmentWriter}
    {chunks : List (List KronEntry)}
    {tail : List KronEntry}
    (hWrote : Wrote codec dir w chunks tail)
    (entries : List KronEntry)
    (hSorted :
      Ascending (chunks.flatten ++ tail ++ entries)) :
    ∃ chunks' tail',
      Wrote codec dir
          (entries.foldl (writeEntry codec) w) chunks'
          tail' ∧
        chunks'.flatten ++ tail' =
          chunks.flatten ++ tail ++ entries := by
  induction entries generalizing w chunks tail with
  | nil => exact ⟨chunks, tail, hWrote, by simp⟩
  | cons entry entries ih =>
      have hSplit :
          chunks.flatten ++ tail ++ entry :: entries =
            chunks.flatten ++ tail ++ [entry] ++
              entries := by
        simp
      rw [hSplit] at hSorted ⊢
      rcases wrote_writeEntry hWrote entry
          (List.pairwise_append.mp hSorted).1 with
        ⟨chunks', tail', hWrote', hEq⟩
      rw [← hEq] at hSorted ⊢
      exact ih hWrote' hSorted

end SegmentWriter

open SegmentWriter

/-
  The entries are spread in order over the listed segments,
  and no other file is touched.
-/
theorem writeSegments_chunked
    (codec : JsonCodec KronEntry)
    (dir : StoreDir)
    {entries : List KronEntry}
    (hSorted : Ascending entries) :
    ∃ chunks,
      chunks.flatten = entries ∧
        List.Forall₂
          (SegmentHolds codec
            (runAll dir (writeSegments codec entries).ops))
          (writeSegments codec entries).segments chunks ∧
        OnSegments (writeSegments codec entries).ops := by
  rcases wrote_foldl (wrote_empty codec dir) entries
      (by simpa using hSorted) with
    ⟨chunks, tail, hWrote, hEq⟩
  have hAll : chunks.flatten ++ tail = entries := by
    simpa using hEq
  unfold writeSegments
  cases hCurrent :
      (entries.foldl (writeEntry codec) .empty).current with
  | none =>
      have hTail : tail = [] := by
        have hHolds := hWrote.current
        rw [hCurrent] at hHolds
        exact hHolds
      rw [hTail, List.append_nil] at hAll
      have hClose :
          (entries.foldl (writeEntry codec) .empty).close =
            entries.foldl (writeEntry codec) .empty := by
        simp [close, hCurrent]
      rw [hClose]
      exact
        ⟨chunks, hAll, hWrote.holds, hWrote.onSegments⟩
  | some file =>
      have hClosed :=
        wrote_close hWrote (by rw [hAll]; exact hSorted)
          hCurrent
      refine
        ⟨chunks ++ [tail], ?_, hClosed.holds,
          hClosed.onSegments⟩
      rw [← hAll]
      simp

end Kron

------------------------------------------------------------
-- Reading The Segments
------------------------------------------------------------

namespace Kron

open Text
open FileSystem

/- Insert entries under their indices. -/
def insertEntries
    (logs : BTreeMap UInt64 KronEntry)
    (entries : List KronEntry) :
    BTreeMap UInt64 KronEntry :=
  entries.foldl
    (fun logs entry => logs.insert entry.logId.index entry)
    logs

/- The loop of `read_log_segments`. -/
def readLogSegments
    (codec : JsonCodec KronEntry)
    (dataDir : String)
    (dir : StoreDir) :
    List SegmentMeta → BTreeMap UInt64 KronEntry →
      Except StorageError (BTreeMap UInt64 KronEntry)
| [], logs => .ok logs
| segment :: segments, logs =>
    match dir[logPath segment.file]? with
    | none =>
        .error
          (corruptStore
            ("missing raft log segment " ++ dataDir ++ "/" ++
              logPath segment.file))
    | some bytes =>
        match readSegmentFile codec bytes with
        | .error e => .error e
        | .ok entries =>
            readLogSegments codec dataDir dir segments
              (insertEntries logs entries)

theorem insertEntries_append
    (logs : BTreeMap UInt64 KronEntry)
    (entries entries' : List KronEntry) :
    insertEntries logs (entries ++ entries') =
      insertEntries (insertEntries logs entries)
        entries' := by
  simp [insertEntries]

/- The entries of all segments are read in order. -/
theorem readLogSegments_of_chunks
    {codec : JsonCodec KronEntry}
    (hLossless : codec.Lossless)
    (dataDir : String)
    {dir : StoreDir}
    {segments : List SegmentMeta}
    {chunks : List (List KronEntry)}
    (hHolds :
      List.Forall₂ (SegmentHolds codec dir) segments chunks)
    (hFits : ∀ e ∈ chunks.flatten, FitsVec codec e)
    (logs : BTreeMap UInt64 KronEntry) :
    readLogSegments codec dataDir dir segments logs =
      .ok (insertEntries logs chunks.flatten) := by
  induction hHolds generalizing logs with
  | nil => rfl
  | @cons segment chunk segments chunks hSegment _ ih =>
      have hChunk : ∀ e ∈ chunk, FitsVec codec e := by
        intro e hMem
        apply hFits
        simp [hMem]
      have hRest :
          ∀ e ∈ chunks.flatten, FitsVec codec e := by
        intro e hMem
        apply hFits
        rw [List.flatten_cons]
        exact List.mem_append_right _ hMem
      simp only [readLogSegments, hSegment.content,
        readSegmentFile_encode hLossless hChunk]
      rw [ih hRest, List.flatten_cons,
        insertEntries_append]

end Kron

------------------------------------------------------------
-- Logs By Index
------------------------------------------------------------

namespace Kron

/- Every entry is stored under its own index. -/
def KeyedByIndex
    (logs : BTreeMap UInt64 KronEntry) : Prop :=
  ∀ (index : UInt64) (entry : KronEntry),
    logs[index]? = some entry → entry.logId.index = index

theorem keyedByIndex_empty :
    KeyedByIndex ∅ := by
  intro index entry hGet
  simp at hGet

theorem keyedByIndex_insertEntries
    {logs : BTreeMap UInt64 KronEntry}
    (hKeyed : KeyedByIndex logs)
    (entries : List KronEntry) :
    KeyedByIndex (insertEntries logs entries) := by
  induction entries generalizing logs with
  | nil => exact hKeyed
  | cons entry entries ih =>
      apply ih
      intro index entry' hGet
      rw [BTreeMap.get_insert] at hGet
      split at hGet
      · rename_i hEq
        cases hGet
        exact hEq
      · exact hKeyed index entry' hGet

theorem keyedByIndex_filter
    {logs : BTreeMap UInt64 KronEntry}
    (hKeyed : KeyedByIndex logs)
    (p : UInt64 → KronEntry → Bool) :
    KeyedByIndex (logs.filter p) := by
  intro index entry hGet
  rw [Std.ExtTreeMap.getElem?_filter'] at hGet
  exact hKeyed index entry (Option.filter_eq_some_iff.mp hGet).1

/- Entries with other indices leave a binding alone. -/
theorem get_insertEntries_of_ne
    (logs : BTreeMap UInt64 KronEntry)
    {entries : List KronEntry}
    {index : UInt64}
    (hNe : ∀ e ∈ entries, e.logId.index ≠ index) :
    (insertEntries logs entries)[index]? = logs[index]? := by
  induction entries generalizing logs with
  | nil => rfl
  | cons entry entries ih =>
      have hRest :
          ∀ e ∈ entries, e.logId.index ≠ index :=
        fun e hMem => hNe e (List.mem_cons_of_mem _ hMem)
      have hStep :
          insertEntries logs (entry :: entries) =
            insertEntries
              (logs.insert entry.logId.index entry)
              entries := rfl
      rw [hStep, ih _ hRest]
      exact
        BTreeMap.get_insert_ne logs entry
          (hNe entry List.mem_cons_self)

theorem get_insertEntries_of_mem
    (logs : BTreeMap UInt64 KronEntry)
    {entries : List KronEntry}
    {e : KronEntry}
    (hSorted : SegmentWriter.Ascending entries)
    (hMem : e ∈ entries) :
    (insertEntries logs entries)[e.logId.index]? =
      some e := by
  rcases List.append_of_mem hMem with ⟨xs, ys, rfl⟩
  have hLater :
      ∀ e' ∈ ys, e'.logId.index ≠ e.logId.index := by
    intro e' hMem' hEq
    have hLt :=
      (List.pairwise_cons.mp
        (List.pairwise_append.mp hSorted).2.1).1 e' hMem'
    rw [hEq] at hLt
    exact UInt64.lt_irrefl _ hLt
  have hStep :
      insertEntries logs (xs ++ e :: ys) =
        insertEntries
          ((insertEntries logs xs).insert e.logId.index e)
          ys := by
    rw [insertEntries_append]
    rfl
  rw [hStep, get_insertEntries_of_ne _ hLater,
    BTreeMap.get_insert, if_pos rfl]

/- The values of a log by index are in order. -/
theorem ascending_vals
    {logs : BTreeMap UInt64 KronEntry}
    (hKeyed : KeyedByIndex logs) :
    SegmentWriter.Ascending logs.vals := by
  unfold SegmentWriter.Ascending BTreeMap.vals
  rw [List.pairwise_map]
  have hKeys :
      ∀ p ∈ logs.toList, p.2.logId.index = p.1 := by
    intro p hMem
    exact
      hKeyed p.1 p.2
        (Std.ExtTreeMap.mem_toList_iff_getElem?_eq_some.mp
          hMem)
  refine
    Std.ExtTreeMap.ordered_keys_toList.imp_of_mem ?_
  intro p q hp hq hLt
  rw [hKeys p hp, hKeys q hq]
  exact Std.compare_eq_lt.mp hLt

/- A log is rebuilt from its values. -/
theorem insertEntries_vals
    {logs : BTreeMap UInt64 KronEntry}
    (hKeyed : KeyedByIndex logs) :
    insertEntries ∅ logs.vals = logs := by
  apply BTreeMap.ext_get
  intro index
  cases hGet : logs[index]? with
  | some e =>
      have hMem : e ∈ logs.vals :=
        (BTreeMap.mem_vals_iff logs e).mpr ⟨index, hGet⟩
      rw [← hKeyed index e hGet]
      exact
        get_insertEntries_of_mem ∅ (ascending_vals hKeyed)
          hMem
  | none =>
      rw [get_insertEntries_of_ne]
      · simp
      · intro e hMem hEq
        rcases (BTreeMap.mem_vals_iff logs e).mp hMem with
          ⟨index', hGet'⟩
        have hIndex := hKeyed index' e hGet'
        rw [← hIndex, hEq, hGet] at hGet'
        cases hGet'

end Kron
