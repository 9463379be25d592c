import Kron.Lib.Cursor
import Kron.Server.Corruption

/-
  Reading a segment that was cut anywhere.

  `read_segment_file` moves an offset over the bytes of the
  file and slices them by lengths that it has read from it.
  Here its additions and slices are checked, and the loop
  has fuel: it never panics and comes to an end, and does
  what the reader over the rest of the bytes does.

  Key definitions include:
    * `Kron.readSegmentLoop`
    * `Kron.readSegmentFileAt`
    * `Kron.recordsWithin`

  Key theorems include:
    * `Kron.readRecordAt_agrees`
    * `Kron.readSegmentFileAt_eq`
    * `Kron.completeIn_eq_recordsWithin`
    * `Kron.segment_prefix_decoding`
-/

------------------------------------------------------------
-- The Loop With Its Offset
------------------------------------------------------------

namespace Kron

open Cursor
open Digits
open Text

/- `read_u32`, which moves the offset. -/
def readU32At
    (bytes : Bytes)
    (offset : Nat) :
    Checked StorageError (UInt32 × Nat) := do
  if bytes.length - offset < 4 then
    throw (corruptStore "truncated u32")
  let next ← addUsize offset 4
  let raw ← slice bytes offset next
  return (UInt32.ofNat (leValue raw), next)

/- `read_u64`. -/
def readU64At
    (bytes : Bytes)
    (offset : Nat) :
    Checked StorageError (UInt64 × Nat) := do
  if bytes.length - offset < 8 then
    throw (corruptStore "truncated u64")
  let next ← addUsize offset 8
  let raw ← slice bytes offset next
  return (UInt64.ofNat (leValue raw), next)

/- The header from the version on. -/
def readHeaderAt
    (bytes : Bytes)
    (offset : Nat) :
    Checked StorageError (RecordHeader × Nat) := do
  let (version, offset) ← readU32At bytes offset
  if version ≠ storeFormatVersion then
    throw
      (corruptStore "unsupported raft log record version")
  let (term, offset) ← readU64At bytes offset
  let (index, offset) ← readU64At bytes offset
  let (checksum, offset) ← readU32At bytes offset
  let (len, offset) ← readU64At bytes offset
  let header : RecordHeader :=
    { term := term
      index := index
      checksum := checksum
      len := len }
  return (header, offset)

/- The payload, whose length is not trusted. -/
def readPayloadAt
    (codec : JsonCodec KronEntry)
    (first : Bool)
    (header : RecordHeader)
    (bytes : Bytes)
    (offset : Nat) :
    Checked StorageError (Option (KronEntry × Nat)) := do
  if bytes.length - offset < header.len.toNat then
    if first then
      throw
        (corruptStore "truncated raft log record payload")
    return none
  let next ← addUsize offset header.len.toNat
  let payload ← slice bytes offset next
  if checksum32 payload ≠ header.checksum then
    throw
      (corruptStore "raft log record checksum mismatch")
  match codec.fromReader payload with
  | .error e => throw (jsonReadError .store e)
  | .ok entry =>
      if entry.logId.index ≠ header.index ∨
          entry.logId.term ≠ header.term then
        throw
          (corruptStore
            "raft log record header does not match entry")
      return some (entry, next)

/- One record; `none` is the tolerated end. -/
def readRecordAt
    (codec : JsonCodec KronEntry)
    (first : Bool)
    (bytes : Bytes)
    (offset : Nat) :
    Checked StorageError (Option (KronEntry × Nat)) := do
  let remaining ← subUsize bytes.length offset
  if remaining < logRecordHeaderBytes then
    if first then
      throw
        (corruptStore "truncated raft log record header")
    return none
  let next ← addUsize offset 8
  let magic ← slice bytes offset next
  if magic ≠ logRecordMagic then
    throw (corruptStore "invalid raft log record magic")
  let (header, offset) ← readHeaderAt bytes next
  readPayloadAt codec first header bytes offset

/- The loop of `read_segment_file`, with fuel. -/
def readSegmentLoop
    (codec : JsonCodec KronEntry)
    (bytes : Bytes) :
    Nat → Nat → List KronEntry →
      Checked StorageError (List KronEntry)
| 0, _, _ => panicked
| fuel + 1, offset, entries =>
    if offset < bytes.length then do
      match ← readRecordAt codec entries.isEmpty bytes
          offset with
      | none => return entries
      | some (entry, next) =>
          if offset = next then
            throw (corruptStore "empty raft log record")
          else
            readSegmentLoop codec bytes fuel next
              (entries ++ [entry])
    else
      return entries

/- No record is empty, so that fuel for each byte is enough. -/
def readSegmentFileAt
    (codec : JsonCodec KronEntry)
    (bytes : Bytes) :
    Checked StorageError (List KronEntry) :=
  readSegmentLoop codec bytes (bytes.length + 1) 0 []

end Kron

------------------------------------------------------------
-- No Panic
------------------------------------------------------------

namespace Kron

open Cursor
open Digits
open Text

variable {codec : JsonCodec KronEntry}
variable {bytes : Bytes}
variable {offset : Nat}

/- A word is read as from the rest of the bytes. -/
theorem readU32At_agrees
    (hVec : bytes.length < 2 ^ 63)
    (hOffset : offset ≤ bytes.length) :
    Agrees (AtOffset bytes) (readU32At bytes offset)
      (readU32 (bytes.drop offset)) := by
  unfold readU32At readU32
  rw [List.length_drop]
  by_cases hShort : bytes.length - offset < 4
  · rw [if_pos hShort, if_pos hShort]
    exact Agrees.throw _ _
  · rw [if_neg hShort, if_neg hShort, List.drop_drop]
    simp only
    rw [addUsize_eq (by omega), pure_bind,
      slice_eq (by omega), pure_bind]
    exact Agrees.pure ⟨rfl, rfl, by simp only; omega⟩

theorem readU64At_agrees
    (hVec : bytes.length < 2 ^ 63)
    (hOffset : offset ≤ bytes.length) :
    Agrees (AtOffset bytes) (readU64At bytes offset)
      (readU64 (bytes.drop offset)) := by
  unfold readU64At readU64
  rw [List.length_drop]
  by_cases hShort : bytes.length - offset < 8
  · rw [if_pos hShort, if_pos hShort]
    exact Agrees.throw _ _
  · rw [if_neg hShort, if_neg hShort, List.drop_drop]
    simp only
    rw [addUsize_eq (by omega), pure_bind,
      slice_eq (by omega), pure_bind]
    exact Agrees.pure ⟨rfl, rfl, by simp only; omega⟩

theorem readHeaderAt_agrees
    (hVec : bytes.length < 2 ^ 63)
    (hOffset : offset ≤ bytes.length) :
    Agrees (AtOffset bytes) (readHeaderAt bytes offset)
      (readHeader (bytes.drop offset)) := by
  unfold readHeaderAt readHeader
  apply (readU32At_agrees hVec hOffset).bind
  rintro ⟨version, o₁⟩ ⟨_, _⟩ ⟨rfl, rfl, h₁⟩
  simp only at h₁ ⊢
  by_cases hVersion : version ≠ storeFormatVersion
  · rw [if_pos hVersion, if_pos hVersion]
    exact Agrees.throw _ _
  · rw [if_neg hVersion, if_neg hVersion]
    apply (readU64At_agrees hVec h₁).bind
    rintro ⟨term, o₂⟩ ⟨_, _⟩ ⟨rfl, rfl, h₂⟩
    apply (readU64At_agrees hVec h₂).bind
    rintro ⟨index, o₃⟩ ⟨_, _⟩ ⟨rfl, rfl, h₃⟩
    apply (readU32At_agrees hVec h₃).bind
    rintro ⟨checksum, o₄⟩ ⟨_, _⟩ ⟨rfl, rfl, h₄⟩
    apply (readU64At_agrees hVec h₄).bind
    rintro ⟨len, o₅⟩ ⟨_, _⟩ ⟨rfl, rfl, h₅⟩
    exact Agrees.pure ⟨rfl, rfl, h₅⟩

/- The length is compared before the payload is sliced. -/
theorem readPayloadAt_agrees
    (first : Bool)
    (header : RecordHeader)
    (hVec : bytes.length < 2 ^ 63)
    (hOffset : offset ≤ bytes.length) :
    Agrees (Option.Rel (AtOffset bytes))
      (readPayloadAt codec first header bytes offset)
      (readPayload codec first header
        (bytes.drop offset)) := by
  unfold readPayloadAt readPayload
  rw [List.length_drop]
  by_cases hShort :
      bytes.length - offset < header.len.toNat
  · rw [if_pos hShort, if_pos hShort]
    cases first with
    | true => exact Agrees.throw _ _
    | false => exact Agrees.pure .none
  · rw [if_neg hShort, if_neg hShort]
    simp only
    rw [addUsize_eq (by omega), pure_bind,
      slice_eq (by omega), pure_bind]
    by_cases hChecksum :
        checksum32
            ((bytes.drop offset).take header.len.toNat) ≠
          header.checksum
    · rw [if_pos hChecksum, if_pos hChecksum]
      exact Agrees.throw _ _
    · rw [if_neg hChecksum, if_neg hChecksum]
      cases codec.fromReader
          ((bytes.drop offset).take header.len.toNat) with
      | error e => exact Agrees.throw _ _
      | ok entry =>
          simp only
          by_cases hOther :
              entry.logId.index ≠ header.index ∨
                entry.logId.term ≠ header.term
          · rw [if_pos hOther, if_pos hOther]
            exact Agrees.throw _ _
          · rw [if_neg hOther, if_neg hOther,
              List.drop_drop]
            exact
              Agrees.pure
                (.some ⟨rfl, rfl, by simp only; omega⟩)

/- One record is read as from the rest of the bytes. -/
theorem readRecordAt_agrees
    (first : Bool)
    (hVec : bytes.length < 2 ^ 63)
    (hOffset : offset ≤ bytes.length) :
    Agrees (Option.Rel (AtOffset bytes))
      (readRecordAt codec first bytes offset)
      (readRecord codec first (bytes.drop offset)) := by
  unfold readRecordAt readRecord
  rw [List.length_drop, subUsize_eq hOffset, pure_bind]
  by_cases hShort :
      bytes.length - offset < logRecordHeaderBytes
  · rw [if_pos hShort, if_pos hShort]
    cases first with
    | true => exact Agrees.throw _ _
    | false => exact Agrees.pure .none
  · have hHeader : logRecordHeaderBytes = 40 := rfl
    rw [if_neg hShort, if_neg hShort]
    simp only
    rw [addUsize_eq (by omega), pure_bind,
      slice_eq (by omega), pure_bind]
    by_cases hMagic :
        (bytes.drop offset).take 8 ≠ logRecordMagic
    · rw [if_pos hMagic, if_pos hMagic]
      exact Agrees.throw _ _
    · rw [if_neg hMagic, if_neg hMagic, List.drop_drop]
      have hNext : offset + 8 ≤ bytes.length := by
        omega
      have hRest :=
        @Agrees.bind _ _ _ _ _ _
          (Option.Rel (AtOffset bytes)) _ _
          (fun item =>
            readPayloadAt codec first item.1 bytes item.2)
          (fun item =>
            readPayload codec first item.1 item.2)
          (readHeaderAt_agrees hVec hNext)
      have hAgrees := hRest <| by
        rintro ⟨header, o⟩ ⟨_, _⟩ ⟨rfl, rfl, ho⟩
        exact readPayloadAt_agrees first header hVec ho
      cases hRead : readHeader (bytes.drop (offset + 8)) with
      | error e =>
          rw [hRead] at hAgrees
          exact hAgrees
      | ok item =>
          rw [hRead] at hAgrees
          exact hAgrees

/- With fuel for the rest of the bytes, the loop is that reader. -/
theorem readSegmentLoop_eq
    (hVec : bytes.length < 2 ^ 63)
    (fuel : Nat)
    (hOffset : offset ≤ bytes.length)
    (hFuel : bytes.length - offset < fuel)
    (entries : List KronEntry) :
    readSegmentLoop codec bytes fuel offset entries =
      ExceptT.mk
        (some
          (readRecords codec (bytes.drop offset)
            entries)) := by
  induction fuel generalizing offset entries with
  | zero => omega
  | succ fuel ih =>
      rw [readSegmentLoop, readRecords]
      by_cases hIn : offset < bytes.length
      · have hNe : bytes.drop offset ≠ [] := by
          rw [Ne, List.drop_eq_nil_iff]
          omega
        rw [if_pos hIn, if_neg hNe]
        have hAgrees :=
          @readRecordAt_agrees codec bytes offset
            entries.isEmpty hVec hOffset
        split
        · rename_i e hRead
          rw [hRead] at hAgrees
          apply ExceptT.ext
          rw [ExceptT.run_bind, hAgrees]
          rfl
        · rename_i hRead
          rw [hRead] at hAgrees
          rcases hAgrees with ⟨_, hRun, hRel⟩
          cases hRel
          apply ExceptT.ext
          rw [ExceptT.run_bind, hRun]
          rfl
        · rename_i entry rest hRead
          have hLess := readRecord_length hRead
          rw [hRead] at hAgrees
          rcases hAgrees with ⟨_, hRun, hRel⟩
          cases hRel with
          | some hAt =>
              rename_i item
              rcases item with ⟨entry', next⟩
              rcases hAt with ⟨hEntry, hRest, hNext⟩
              simp only at hEntry hRest hNext
              subst hEntry hRest
              rw [List.length_drop, List.length_drop]
                at hLess
              have hMoved : offset ≠ next := by
                omega
              rw [if_neg (by
                rw [List.length_drop, List.length_drop]
                omega)]
              rw [← ih hNext (by omega)]
              apply ExceptT.ext
              rw [ExceptT.run_bind, hRun]
              change
                ExceptT.run
                    (if offset = next then _ else _) = _
              rw [if_neg hMoved]
      · have hNil : bytes.drop offset = [] := by
          rw [List.drop_eq_nil_iff]
          omega
        rw [if_neg hIn, if_pos hNil]
        rfl

/- Reading any file comes to an end without a panic. -/
theorem readSegmentFileAt_eq
    (codec : JsonCodec KronEntry)
    (hVec : bytes.length < 2 ^ 63) :
    (readSegmentFileAt codec bytes).run =
      some (readSegmentFile codec bytes) := by
  unfold readSegmentFileAt readSegmentFile
  rw [readSegmentLoop_eq hVec _ (Nat.zero_le _) (by omega),
    List.drop_zero]
  rfl

end Kron

------------------------------------------------------------
-- Cuts
------------------------------------------------------------

namespace Kron

open Cursor
open Text

variable {codec : JsonCodec KronEntry}

/- The entries whose records end within the first `k` bytes. -/
def recordsWithin
    (codec : JsonCodec KronEntry)
    (entries : List KronEntry)
    (k : Nat) : List KronEntry :=
  (entries.zipIdx.filter fun item =>
      (segmentBytes codec
        (entries.take (item.2 + 1))).length ≤ k).map
    Prod.fst

/- Where one record is complete, so are all before it. -/
theorem completeIn_eq_recordsWithin
    (entries : List KronEntry)
    (k : Nat) :
    completeIn codec entries k =
      recordsWithin codec entries k := by
  induction entries generalizing k with
  | nil => rfl
  | cons entry entries ih =>
      have hShift :
          ∀ i,
            (segmentBytes codec
                ((entry :: entries).take (i + 1))).length =
              (encodeLogRecord codec entry).length +
                (segmentBytes codec
                  (entries.take i)).length := by
        intro i
        simp [segmentBytes]
      have hFirst : entries.take 0 = [] := rfl
      have hNone : (segmentBytes codec []).length = 0 := rfl
      unfold recordsWithin completeIn
      rw [List.zipIdx_cons', List.filter_cons,
        List.filter_map]
      simp only [hShift, hFirst, hNone, Nat.add_zero,
        decide_eq_true_eq]
      by_cases hIn :
          (encodeLogRecord codec entry).length ≤ k
      · rw [if_pos hIn, if_pos hIn, ih, List.map_cons,
          List.map_map]
        have hSame :
            ∀ n : Nat,
              ((encodeLogRecord codec entry).length + n ≤
                  k) =
                (n ≤
                  k -
                    (encodeLogRecord codec
                      entry).length) := by
          intro n
          apply propext
          omega
        simp [recordsWithin, Function.comp_def, hSame]
      · have hOut :
            ∀ n : Nat,
              ¬ (encodeLogRecord codec entry).length + n ≤
                k := by
          intro n
          omega
        rw [if_neg hIn, if_neg hIn]
        simp [Function.comp_def, hOut]

/-
  A cut segment gives the entries whose records are complete,
  or an error where the cut is inside of the first record;
  and any file is read to an end without a panic.
-/
theorem segment_prefix_decoding
    (codec : JsonCodec KronEntry)
    (hLossless : codec.Lossless) :
    (∀ entries : List KronEntry,
      (∀ e ∈ entries, FitsVec codec e) →
        ∀ k ≤ (segmentBytes codec entries).length,
          ((k = 0 ∨
                ∃ e ∈ entries.head?,
                  (encodeLogRecord codec e).length ≤ k) →
              readSegmentFile codec
                  ((segmentBytes codec entries).take k) =
                .ok (recordsWithin codec entries k)) ∧
            (¬ (k = 0 ∨
                  ∃ e ∈ entries.head?,
                    (encodeLogRecord codec e).length ≤ k) →
              ∃ e,
                readSegmentFile codec
                    ((segmentBytes codec entries).take k) =
                  .error e)) ∧
      ∀ bytes : Bytes, bytes.length < 2 ^ 63 →
        (readSegmentFileAt codec bytes).run =
          some (readSegmentFile codec bytes) := by
  refine ⟨?_, fun _ hVec => readSegmentFileAt_eq codec hVec⟩
  intro entries hFits k hCut
  rw [← completeIn_eq_recordsWithin]
  cases entries with
  | nil =>
      have hZero : k = 0 := by
        simpa [segmentBytes] using hCut
      subst hZero
      refine ⟨fun _ => ?_, fun hNot => (hNot (Or.inl rfl)).elim⟩
      rw [List.take_zero, readSegmentFile, readRecords,
        if_pos rfl]
      rfl
  | cons entry entries =>
      rcases List.forall_mem_cons.mp hFits with
        ⟨hEntry, hRest⟩
      constructor
      · rintro (rfl | ⟨e, hHead, hIn⟩)
        · have hPos :
              ¬ (encodeLogRecord codec entry).length ≤
                0 := by
            rw [length_encodeLogRecord]
            omega
          rw [List.take_zero, readSegmentFile, readRecords,
            if_pos rfl, completeIn, if_neg hPos]
        · cases hHead
          rw [readSegmentFile, segmentBytes_cons,
            List.take_append,
            List.take_of_length_le hIn,
            readRecords_encode hLossless hEntry,
            readRecords_take hLossless hRest (by simp),
            completeIn, if_pos hIn]
          rfl
      · intro hInside
        apply (readSegmentFile_take hLossless hFits k).mpr
        constructor
        · by_contra hZero
          exact hInside (Or.inl (by omega))
        · by_contra hLong
          exact
            hInside
              (Or.inr ⟨entry, rfl, Nat.le_of_not_lt hLong⟩)

/- Three records of 115 bytes, cut in the second and first. -/
theorem segment_prefix_decoding_three :
    readSegmentFile threeCodec
          ((segmentBytes threeCodec
            [blankEntry 1, blankEntry 2,
              blankEntry 3]).take 130) =
        .ok [blankEntry 1] ∧
      ∃ e,
        readSegmentFile threeCodec
            ((segmentBytes threeCodec
              [blankEntry 1, blankEntry 2,
                blankEntry 3]).take 50) =
          .error e := by
  have hLength :
      ∀ e ∈ [blankEntry 1, blankEntry 2, blankEntry 3],
        (encodeLogRecord threeCodec e).length = 115 := by
    intro e hMem
    rw [length_encodeLogRecord,
      length_payloadOf_three e hMem]
  have hOne := hLength (blankEntry 1) (by simp)
  have hTwo := hLength (blankEntry 2) (by simp)
  have hThree := hLength (blankEntry 3) (by simp)
  have hAll :
      (segmentBytes threeCodec
        [blankEntry 1, blankEntry 2,
          blankEntry 3]).length = 345 := by
    simp [segmentBytes, hOne, hTwo, hThree]
  have hDecodes :=
    (segment_prefix_decoding threeCodec
      (tableCodec_lossless threeRows_ok)).1 _ fitsVec_three
  constructor
  · rw [(hDecodes 130 (by omega)).1
      (Or.inr ⟨blankEntry 1, rfl, by omega⟩),
      ← completeIn_eq_recordsWithin]
    simp [completeIn, hOne, hTwo]
  · apply (hDecodes 50 (by omega)).2
    rintro (hZero | ⟨e, hHead, hIn⟩)
    · omega
    · cases hHead
      omega

end Kron
