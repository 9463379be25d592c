import Kron.Lib.Folds
import Kron.Server.RaftCrash

/-
  Damaged segments.

  A changed byte of a record is found by its magic, its
  version, its checksum or its header, except where it makes
  the length of a record other than the first point past the
  end of the file: that is taken for a torn tail. A segment
  that was cut short is taken for one with a torn tail as
  well, wherever it stands in the log.

  Key definitions include:
    * `Kron.RejectsPrefix`
    * `Kron.RejectsTrailing`
    * `Kron.LooksTorn`
    * `Kron.completeIn`
    * `Kron.CutInFirst`

  Key theorems include:
    * `Kron.checksum32_tells_byte`
    * `Kron.readRecord_damaged`
    * `Kron.readSegmentFile_damaged_iff`
    * `Kron.readSegmentFile_take`
    * `Kron.openStore_cut_iff`
-/

------------------------------------------------------------
-- The Checksum Of One Changed Byte
------------------------------------------------------------

namespace Kron

open Text
open Digits

/- One step of the checksum. -/
def checksumStep
    (hash : UInt32)
    (byte : UInt8) : UInt32 :=
  (hash ^^^ byte.toUInt32) * 0x01000193

/- The multiplier is odd, so that it can be undone. -/
theorem mul_prime_inj
    {x y : UInt32}
    (hEq : x * 0x01000193 = y * 0x01000193) :
    x = y := by
  have hInverse :
      ∀ z : UInt32, z * 0x01000193 * 0x359c449b = z := by
    intro z
    have hOne :
        (0x01000193 : UInt32) * 0x359c449b = 1 := by
      decide
    rw [UInt32.mul_assoc, hOne, UInt32.mul_one]
  rw [← hInverse x, hEq, hInverse]

/- A step tells the hash, and it tells the byte. -/
theorem checksumStep_faithful :
    Folds.Faithful checksumStep where
  state byte hash hash' hEq := by
    have hXor := mul_prime_inj hEq
    have hBack :
        ∀ h : UInt32,
          (h ^^^ byte.toUInt32) ^^^ byte.toUInt32 = h := by
      intro h
      rw [UInt32.xor_assoc, UInt32.xor_self, UInt32.xor_zero]
    rw [← hBack hash, hXor, hBack]
  symbol hash byte byte' hEq := by
    have hXor := mul_prime_inj hEq
    have hBack :
        ∀ b : UInt8,
          hash ^^^ (hash ^^^ b.toUInt32) = b.toUInt32 := by
      intro b
      rw [← UInt32.xor_assoc, UInt32.xor_self,
        UInt32.zero_xor]
    apply UInt8.toUInt32_inj.mp
    rw [← hBack byte, hXor, hBack]

/- The checksum tells a payload from one with another byte. -/
theorem checksum32_set_ne
    {bytes : Bytes}
    {p : Nat}
    {b : UInt8}
    (hp : p < bytes.length)
    (hb : bytes[p]? ≠ some b) :
    checksum32 (bytes.set p b) ≠ checksum32 bytes := by
  intro hEq
  apply hb
  rw [(Folds.foldl_set_eq_iff checksumStep_faithful hp _ b).mp
    hEq]
  exact List.getElem?_eq_getElem hp

/-
  Another byte anywhere in a byte string gives another
  checksum, and the same byte the same one.
-/
theorem checksum32_tells_byte
    (bytes : Bytes)
    (p : Fin bytes.length)
    (b : UInt8) :
    checksum32 (bytes.set p b) ≠ checksum32 bytes ↔
      b ≠ bytes[p] :=
  not_congr
    (Folds.foldl_set_eq_iff checksumStep_faithful p.isLt
      0x811c9dc5 b)

end Kron

------------------------------------------------------------
-- The Fields Of A Record
------------------------------------------------------------

namespace Kron

open Text
open Digits

variable {codec : JsonCodec KronEntry}

/- Reading a record from bytes cut into its fields. -/
theorem readRecord_fields
    (codec : JsonCodec KronEntry)
    (first : Bool)
    {magic version term index checksum len : Bytes}
    (rest : Bytes)
    (hMagic : magic.length = 8)
    (hVersion : version.length = 4)
    (hTerm : term.length = 8)
    (hIndex : index.length = 8)
    (hChecksum : checksum.length = 4)
    (hLen : len.length = 8) :
    readRecord codec first
        (magic ++ (version ++ (term ++ (index ++
          (checksum ++ (len ++ rest)))))) =
      if magic ≠ logRecordMagic then
        .error
          (corruptStore "invalid raft log record magic")
      else if UInt32.ofNat (leValue version) ≠
          storeFormatVersion then
        .error
          (corruptStore
            "unsupported raft log record version")
      else
        readPayload codec first
          { term := UInt64.ofNat (leValue term)
            index := UInt64.ofNat (leValue index)
            checksum := UInt32.ofNat (leValue checksum)
            len := UInt64.ofNat (leValue len) } rest := by
  have hWord32 :
      ∀ {w : Bytes}, w.length = 4 → ∀ rest : Bytes,
        readU32 (w ++ rest) =
          .ok (UInt32.ofNat (leValue w), rest) := by
    intro w hw rest
    unfold readU32
    rw [if_neg (by simp [hw]), List.take_left' hw,
      List.drop_left' hw]
  have hWord64 :
      ∀ {w : Bytes}, w.length = 8 → ∀ rest : Bytes,
        readU64 (w ++ rest) =
          .ok (UInt64.ofNat (leValue w), rest) := by
    intro w hw rest
    unfold readU64
    rw [if_neg (by simp [hw]), List.take_left' hw,
      List.drop_left' hw]
  unfold readRecord
  rw [if_neg
    (by
      simp only [logRecordHeaderBytes, List.length_append]
      omega),
    List.take_left' hMagic, List.drop_left' hMagic]
  by_cases hIsMagic : magic = logRecordMagic
  · rw [if_neg (not_not_intro hIsMagic),
      if_neg (not_not_intro hIsMagic)]
    simp only [readHeader, bind, Except.bind,
      hWord32 hVersion, hWord64 hTerm, hWord64 hIndex,
      hWord32 hChecksum, hWord64 hLen]
    by_cases hIsVersion :
        UInt32.ofNat (leValue version) = storeFormatVersion
    · simp only [hIsVersion, ne_eq, not_true_eq_false,
        if_false]
      rfl
    · simp only [hIsVersion, ne_eq, not_false_eq_true,
        if_true]
      rfl
  · rw [if_pos hIsMagic, if_pos hIsMagic]

/- A record as its fields, with the bytes after it. -/
theorem encodeLogRecord_fields
    (codec : JsonCodec KronEntry)
    (entry : KronEntry) :
    encodeLogRecord codec entry =
      logRecordMagic ++
        (leBytes 4 storeFormatVersion.toNat ++
          (leBytes 8 entry.logId.term.toNat ++
            (leBytes 8 entry.logId.index.toNat ++
              (leBytes 4
                  (checksum32
                    (payloadOf codec entry)).toNat ++
                (leBytes 8
                    (UInt64.ofNat
                      (payloadOf codec
                        entry).length).toNat ++
                  payloadOf codec entry))))) := by
  simp only [encodeLogRecord, List.append_assoc]

/- A word with one changed byte is another word. -/
theorem leValue_set_ne
    {width n p : Nat}
    {b : UInt8}
    (hn : n < 256 ^ width)
    (hp : p < width)
    (hb : (leBytes width n)[p]? ≠ some b) :
    leValue ((leBytes width n).set p b) ≠ n := by
  intro hEq
  apply hb
  have hSame :
      (leBytes width n).set p b = leBytes width n := by
    apply leValue_inj (by simp)
    rw [hEq, leValue_leBytes hn]
  rw [← hSame]
  simp [hp]

theorem ofNat32_leValue_set_ne
    (n : UInt32)
    {p : Nat}
    {b : UInt8}
    (hp : p < 4)
    (hb : (leBytes 4 n.toNat)[p]? ≠ some b) :
    UInt32.ofNat (leValue ((leBytes 4 n.toNat).set p b)) ≠
      n := by
  intro hEq
  apply leValue_set_ne n.toNat_lt hp hb
  have hLt :
      leValue ((leBytes 4 n.toNat).set p b) < 2 ^ 32 := by
    have hBound :=
      leValue_lt ((leBytes 4 n.toNat).set p b)
    simpa using hBound
  have hNat := congrArg UInt32.toNat hEq
  rw [UInt32.toNat_ofNat_of_lt' hLt] at hNat
  exact hNat

theorem ofNat64_leValue_set_ne
    (n : UInt64)
    {p : Nat}
    {b : UInt8}
    (hp : p < 8)
    (hb : (leBytes 8 n.toNat)[p]? ≠ some b) :
    UInt64.ofNat (leValue ((leBytes 8 n.toNat).set p b)) ≠
      n := by
  intro hEq
  apply leValue_set_ne n.toNat_lt hp hb
  have hLt :
      leValue ((leBytes 8 n.toNat).set p b) < 2 ^ 64 := by
    have hBound :=
      leValue_lt ((leBytes 8 n.toNat).set p b)
    simpa using hBound
  have hNat := congrArg UInt64.toNat hEq
  rw [UInt64.toNat_ofNat_of_lt' hLt] at hNat
  exact hNat

end Kron

------------------------------------------------------------
-- Damaged Records
------------------------------------------------------------

namespace Kron

open Text
open Digits

/- A proper first part of a payload does not parse. -/
def RejectsPrefix
    (codec : JsonCodec KronEntry) : Prop :=
  ∀ entry (bytes : Bytes),
    bytes <+: payloadOf codec entry →
      bytes ≠ payloadOf codec entry →
        ∃ e, codec.fromReader bytes = .error e

/- A payload followed by another record does not parse. -/
def RejectsTrailing
    (codec : JsonCodec KronEntry) : Prop :=
  ∀ entry (bytes : Bytes),
    bytes.head? = logRecordMagic.head? →
      ∃ e,
        codec.fromReader (payloadOf codec entry ++ bytes) =
          .error e

/-
  The changed byte is in the length of a record that is not
  the first, and the length points past the end of the file.
-/
def LooksTorn
    (codec : JsonCodec KronEntry)
    (first : Bool)
    (entry : KronEntry)
    (rest : Bytes)
    (p : Nat)
    (b : UInt8) : Prop :=
  first = false ∧ 32 ≤ p ∧ p < 40 ∧
    (payloadOf codec entry).length + rest.length <
      leValue
        ((((encodeLogRecord codec entry).set p b).drop
          32).take 8)

variable {codec : JsonCodec KronEntry}
variable {entry : KronEntry}

theorem toNat_payload_length
    (hFits : FitsVec codec entry) :
    (UInt64.ofNat (payloadOf codec entry).length).toNat =
      (payloadOf codec entry).length := by
  apply UInt64.toNat_ofNat_of_lt'
  unfold FitsVec at hFits
  have hPow : (2 : Nat) ^ 63 < UInt64.size := by decide
  omega

/- A payload of the announced length, with another header. -/
theorem readPayload_of_length
    (codec : JsonCodec KronEntry)
    (first : Bool)
    {header : RecordHeader}
    {payload : Bytes}
    (rest : Bytes)
    (hLen : header.len.toNat = payload.length)
    (hBad :
      checksum32 payload ≠ header.checksum ∨
        ∀ entry, codec.fromReader payload = .ok entry →
          entry.logId.index ≠ header.index ∨
            entry.logId.term ≠ header.term) :
    ∃ e,
      readPayload codec first header (payload ++ rest) =
        .error e := by
  unfold readPayload
  rw [if_neg (by rw [hLen]; simp), hLen, List.take_left]
  by_cases hSum : checksum32 payload = header.checksum
  · rcases hBad with hNe | hBad
    · exact (hNe hSum).elim
    · simp only [hSum, ne_eq, not_true_eq_false, if_false]
      cases hParse : codec.fromReader payload with
      | error e => exact ⟨_, rfl⟩
      | ok found =>
          simp only
          rw [if_pos (hBad found hParse)]
          exact ⟨_, rfl⟩
  · rw [if_pos hSum]
    exact ⟨_, rfl⟩

/- A payload cut at another length does not parse. -/
theorem fromReader_take_error
    (hPrefix : RejectsPrefix codec)
    (hTrailing : RejectsTrailing codec)
    {rest : Bytes}
    (hRest : rest.head? = logRecordMagic.head?)
    {n : Nat}
    (hNe : n ≠ (payloadOf codec entry).length) :
    ∃ e,
      codec.fromReader
          ((payloadOf codec entry ++ rest).take n) =
        .error e := by
  by_cases hLt : n < (payloadOf codec entry).length
  · rw [List.take_append_of_le_length (by omega)]
    apply hPrefix entry _ (List.take_prefix _ _)
    intro hEq
    have hLength := congrArg List.length hEq
    rw [List.length_take] at hLength
    omega
  · rw [List.take_append,
      List.take_of_length_le (by omega)]
    apply hTrailing
    rw [List.head?_take, if_neg (by omega)]
    exact hRest

/- The lengths of the fields of a record. -/
theorem length_encodeLogRecord
    (codec : JsonCodec KronEntry)
    (entry : KronEntry) :
    (encodeLogRecord codec entry).length =
      40 + (payloadOf codec entry).length := by
  rw [encodeLogRecord_fields]
  simp only [List.length_append, length_leBytes]
  have hMagic : logRecordMagic.length = 8 := rfl
  omega

/- A list with one changed element is another list. -/
theorem set_ne_self
    {bytes : Bytes}
    {p : Nat}
    {b : UInt8}
    (hp : p < bytes.length)
    (hb : bytes[p]? ≠ some b) :
    bytes.set p b ≠ bytes := by
  intro hEq
  apply hb
  rw [← hEq]
  simp [hp]

/- A changed byte is in the one part or in the other. -/
theorem set_append_cases
    {part rest : Bytes}
    {p : Nat}
    {b : UInt8}
    (hb : (part ++ rest)[p]? ≠ some b) :
    (p < part.length ∧ part[p]? ≠ some b ∧
        (part ++ rest).set p b = part.set p b ++ rest) ∨
      (part.length ≤ p ∧
        rest[p - part.length]? ≠ some b ∧
        (part ++ rest).set p b =
          part ++ rest.set (p - part.length) b) := by
  by_cases hp : p < part.length
  · left
    rw [List.getElem?_append_left hp] at hb
    exact ⟨hp, hb, List.set_append_left _ _ hp⟩
  · right
    have hLe : part.length ≤ p := by omega
    rw [List.getElem?_append_right hLe] at hb
    exact ⟨hLe, hb, List.set_append_right _ _ hLe⟩

/-
  A record with one changed byte: the byte is in one of the
  six fields of the header or in the payload.
-/
inductive DamagedField
    (magic version term index checksum len payload : Bytes)
    (p : Nat)
    (b : UInt8)
    (bytes : Bytes) : Prop where
| magic
    (hp : p < 8)
    (hb : magic[p]? ≠ some b)
    (hBytes :
      bytes =
        magic.set p b ++ (version ++ (term ++ (index ++
          (checksum ++ (len ++ payload))))))
| version
    (q : Nat)
    (hq : q < 4)
    (hp : p = 8 + q)
    (hb : version[q]? ≠ some b)
    (hBytes :
      bytes =
        magic ++ (version.set q b ++ (term ++ (index ++
          (checksum ++ (len ++ payload))))))
| term
    (q : Nat)
    (hq : q < 8)
    (hp : p = 12 + q)
    (hb : term[q]? ≠ some b)
    (hBytes :
      bytes =
        magic ++ (version ++ (term.set q b ++ (index ++
          (checksum ++ (len ++ payload))))))
| index
    (q : Nat)
    (hq : q < 8)
    (hp : p = 20 + q)
    (hb : index[q]? ≠ some b)
    (hBytes :
      bytes =
        magic ++ (version ++ (term ++ (index.set q b ++
          (checksum ++ (len ++ payload))))))
| checksum
    (q : Nat)
    (hq : q < 4)
    (hp : p = 28 + q)
    (hb : checksum[q]? ≠ some b)
    (hBytes :
      bytes =
        magic ++ (version ++ (term ++ (index ++
          (checksum.set q b ++ (len ++ payload))))))
| len
    (q : Nat)
    (hq : q < 8)
    (hp : p = 32 + q)
    (hb : len[q]? ≠ some b)
    (hBytes :
      bytes =
        magic ++ (version ++ (term ++ (index ++
          (checksum ++ (len.set q b ++ payload))))))
| payload
    (q : Nat)
    (hp : p = 40 + q)
    (hb : payload[q]? ≠ some b)
    (hBytes :
      bytes =
        magic ++ (version ++ (term ++ (index ++
          (checksum ++ (len ++ payload.set q b))))))

theorem damagedField_of_set
    {magic version term index checksum len payload : Bytes}
    (hMagic : magic.length = 8)
    (hVersion : version.length = 4)
    (hTerm : term.length = 8)
    (hIndex : index.length = 8)
    (hChecksum : checksum.length = 4)
    (hLen : len.length = 8)
    {p : Nat}
    {b : UInt8}
    (hb :
      (magic ++ (version ++ (term ++ (index ++
        (checksum ++ (len ++ payload))))))[p]? ≠ some b) :
    DamagedField magic version term index checksum len
      payload p b
      ((magic ++ (version ++ (term ++ (index ++
        (checksum ++ (len ++ payload)))))).set p b) := by
  rcases set_append_cases hb with
    ⟨hp, hb, hSet⟩ | ⟨hp₁, hb, hSet⟩
  · rw [hMagic] at hp
    exact .magic hp hb hSet
  rw [hSet]
  rcases set_append_cases hb with
    ⟨hp, hb, hSet⟩ | ⟨hp₂, hb, hSet⟩
  · rw [hSet]
    exact .version _ (by omega) (by omega) hb rfl
  rw [hSet]
  rcases set_append_cases hb with
    ⟨hp, hb, hSet⟩ | ⟨hp₃, hb, hSet⟩
  · rw [hSet]
    exact .term _ (by omega) (by omega) hb rfl
  rw [hSet]
  rcases set_append_cases hb with
    ⟨hp, hb, hSet⟩ | ⟨hp₄, hb, hSet⟩
  · rw [hSet]
    exact .index _ (by omega) (by omega) hb rfl
  rw [hSet]
  rcases set_append_cases hb with
    ⟨hp, hb, hSet⟩ | ⟨hp₅, hb, hSet⟩
  · rw [hSet]
    exact .checksum _ (by omega) (by omega) hb rfl
  rw [hSet]
  rcases set_append_cases hb with
    ⟨hp, hb, hSet⟩ | ⟨hp₆, hb, hSet⟩
  · rw [hSet]
    exact .len _ (by omega) (by omega) hb rfl
  rw [hSet]
  exact .payload _ (by omega) hb rfl

/- The length of a record among its fields. -/
theorem take_drop_len
    {magic version term index checksum len payload : Bytes}
    (hMagic : magic.length = 8)
    (hVersion : version.length = 4)
    (hTerm : term.length = 8)
    (hIndex : index.length = 8)
    (hChecksum : checksum.length = 4)
    (hLen : len.length = 8) :
    ((magic ++ (version ++ (term ++ (index ++
          (checksum ++ (len ++ payload)))))).drop
        32).take 8 =
      len := by
  have hHead :
      (magic ++ version ++ term ++ index ++
          checksum).length = 32 := by
    simp only [List.length_append]
    omega
  have hAssoc :
      magic ++ (version ++ (term ++ (index ++
          (checksum ++ (len ++ payload))))) =
        (magic ++ version ++ term ++ index ++ checksum) ++
          (len ++ payload) := by
    simp only [List.append_assoc]
  rw [hAssoc, List.drop_left' hHead, List.take_left' hLen]

/- The payload is followed by the next record. -/
theorem readPayload_damaged_len
    (hPrefix : RejectsPrefix codec)
    (hTrailing : RejectsTrailing codec)
    (first : Bool)
    (term index : UInt64)
    (checksum : UInt32)
    {len : UInt64}
    {rest : Bytes}
    (hRest : rest.head? = logRecordMagic.head?)
    (hLen : len.toNat ≠ (payloadOf codec entry).length) :
    if first = false ∧
        (payloadOf codec entry).length + rest.length <
          len.toNat then
      readPayload codec first ⟨term, index, checksum, len⟩
          (payloadOf codec entry ++ rest) =
        .ok none
    else
      ∃ e,
        readPayload codec first ⟨term, index, checksum, len⟩
            (payloadOf codec entry ++ rest) =
          .error e := by
  unfold readPayload
  by_cases hLong :
      (payloadOf codec entry ++ rest).length <
        len.toNat
  · rw [if_pos hLong]
    rw [List.length_append] at hLong
    cases first with
    | true => simp
    | false => simp [hLong]
  · rw [if_neg hLong]
    rw [List.length_append] at hLong
    rw [if_neg (fun hTorn => hLong hTorn.2)]
    simp only
    by_cases hSum :
        checksum32
            ((payloadOf codec entry ++ rest).take
              len.toNat) =
          checksum
    · rw [if_neg (not_not_intro hSum)]
      rcases fromReader_take_error hPrefix hTrailing hRest
        hLen with ⟨e, hError⟩
      rw [hError]
      exact ⟨_, rfl⟩
    · rw [if_pos hSum]
      exact ⟨_, rfl⟩

/- The payload of an entry under a header of another one. -/
theorem readPayload_wrong_header
    (hLossless : codec.Lossless)
    (hFits : FitsVec codec entry)
    (first : Bool)
    (rest : Bytes)
    {term index : UInt64}
    {checksum : UInt32}
    (hBad :
      checksum32 (payloadOf codec entry) ≠ checksum ∨
        entry.logId.index ≠ index ∨
          entry.logId.term ≠ term) :
    ∃ e,
      readPayload codec first
          { term := term
            index := index
            checksum := checksum
            len :=
              UInt64.ofNat (payloadOf codec entry).length }
          (payloadOf codec entry ++ rest) =
        .error e := by
  have hRead :
      codec.fromReader (payloadOf codec entry) =
        .ok entry := by
    unfold payloadOf
    rw [JsonCodec.fromReader_utf8]
    exact hLossless entry
  apply readPayload_of_length codec first rest
    (toNat_payload_length hFits)
  rcases hBad with hSum | hIds
  · left
    exact hSum
  · right
    intro found hFound
    rw [hRead] at hFound
    cases hFound
    exact hIds

/- The changed byte of a record is in one of its fields. -/
theorem damagedField_of_record
    {p : Nat}
    {b : UInt8}
    (hb : (encodeLogRecord codec entry)[p]? ≠ some b) :
    DamagedField logRecordMagic
      (leBytes 4 storeFormatVersion.toNat)
      (leBytes 8 entry.logId.term.toNat)
      (leBytes 8 entry.logId.index.toNat)
      (leBytes 4 (checksum32 (payloadOf codec entry)).toNat)
      (leBytes 8
        (UInt64.ofNat
          (payloadOf codec entry).length).toNat)
      (payloadOf codec entry) p b
      ((encodeLogRecord codec entry).set p b) := by
  rw [encodeLogRecord_fields] at hb ⊢
  exact
    damagedField_of_set rfl (length_leBytes _ _)
      (length_leBytes _ _) (length_leBytes _ _)
      (length_leBytes _ _) (length_leBytes _ _) hb

/-
  A record under another length. It looks like a torn tail
  where the length points past the end of the file.
-/
theorem readRecord_damaged_len
    (hPrefix : RejectsPrefix codec)
    (hTrailing : RejectsTrailing codec)
    (hFits : FitsVec codec entry)
    (first : Bool)
    {rest : Bytes}
    (hRest : rest.head? = logRecordMagic.head?)
    {len : Bytes}
    (hLength : len.length = 8)
    (hLen :
      UInt64.ofNat (leValue len) ≠
        UInt64.ofNat (payloadOf codec entry).length) :
    if first = false ∧
        (payloadOf codec entry).length + rest.length <
          leValue len then
      readRecord codec first
          (logRecordMagic ++
            (leBytes 4 storeFormatVersion.toNat ++
              (leBytes 8 entry.logId.term.toNat ++
                (leBytes 8 entry.logId.index.toNat ++
                  (leBytes 4
                      (checksum32
                        (payloadOf codec entry)).toNat ++
                    (len ++
                      (payloadOf codec entry ++
                        rest))))))) =
        .ok none
    else
      ∃ e,
        readRecord codec first
            (logRecordMagic ++
              (leBytes 4 storeFormatVersion.toNat ++
                (leBytes 8 entry.logId.term.toNat ++
                  (leBytes 8 entry.logId.index.toNat ++
                    (leBytes 4
                        (checksum32
                          (payloadOf codec entry)).toNat ++
                      (len ++
                        (payloadOf codec entry ++
                          rest))))))) =
          .error e := by
  have hNe :
      (UInt64.ofNat (leValue len)).toNat ≠
        (payloadOf codec entry).length := by
    intro hEq
    apply hLen
    rw [← UInt64.toNat_inj, hEq, toNat_payload_length hFits]
  have hToNat :
      (UInt64.ofNat (leValue len)).toNat = leValue len := by
    apply UInt64.toNat_ofNat_of_lt'
    have hBound := leValue_lt len
    rw [hLength] at hBound
    simpa using hBound
  rw [readRecord_fields codec first _ rfl
    (length_leBytes _ _) (length_leBytes _ _)
    (length_leBytes _ _) (length_leBytes _ _) hLength,
    if_neg (not_not_intro rfl),
    if_neg (not_not_intro (ofNat32_leValue _))]
  have hPayload :=
    readPayload_damaged_len hPrefix hTrailing first
      (UInt64.ofNat
        (leValue (leBytes 8 entry.logId.term.toNat)))
      (UInt64.ofNat
        (leValue (leBytes 8 entry.logId.index.toNat)))
      (UInt32.ofNat
        (leValue
          (leBytes 4
            (checksum32 (payloadOf codec entry)).toNat)))
      hRest hNe
  rw [hToNat] at hPayload
  exact hPayload

/-
  A record with one changed byte and a record after it is
  found out, unless it looks like a torn tail.
-/
theorem readRecord_damaged
    (hLossless : codec.Lossless)
    (hPrefix : RejectsPrefix codec)
    (hTrailing : RejectsTrailing codec)
    (hFits : FitsVec codec entry)
    (first : Bool)
    {rest : Bytes}
    (hRest : rest.head? = logRecordMagic.head?)
    {p : Nat}
    {b : UInt8}
    (hp : p < (encodeLogRecord codec entry).length)
    (hb : (encodeLogRecord codec entry)[p]? ≠ some b) :
    (LooksTorn codec first entry rest p b →
      readRecord codec first
          ((encodeLogRecord codec entry).set p b ++ rest) =
        .ok none) ∧
    (¬ LooksTorn codec first entry rest p b →
      ∃ e,
        readRecord codec first
            ((encodeLogRecord codec entry).set p b ++
              rest) =
          .error e) := by
  have hMagic : logRecordMagic.length = 8 := rfl
  rw [length_encodeLogRecord] at hp
  unfold LooksTorn
  cases damagedField_of_record hb with
  | magic hp hb hBytes =>
      refine ⟨fun hTorn => by omega, fun _ => ?_⟩
      rw [hBytes]
      simp only [List.append_assoc]
      rw [readRecord_fields codec first _ (by simp [hMagic])
        (length_leBytes _ _) (length_leBytes _ _)
        (length_leBytes _ _) (length_leBytes _ _)
        (length_leBytes _ _),
        if_pos (set_ne_self (by omega) hb)]
      exact ⟨_, rfl⟩
  | version q hq hp hb hBytes =>
      refine ⟨fun hTorn => by omega, fun _ => ?_⟩
      rw [hBytes]
      simp only [List.append_assoc]
      rw [readRecord_fields codec first _ hMagic (by simp)
        (length_leBytes _ _) (length_leBytes _ _)
        (length_leBytes _ _) (length_leBytes _ _),
        if_neg (not_not_intro rfl),
        if_pos
          (ofNat32_leValue_set_ne storeFormatVersion hq hb)]
      exact ⟨_, rfl⟩
  | term q hq hp hb hBytes =>
      refine ⟨fun hTorn => by omega, fun _ => ?_⟩
      rw [hBytes]
      simp only [List.append_assoc]
      rw [readRecord_fields codec first _ hMagic
        (length_leBytes _ _) (by simp) (length_leBytes _ _)
        (length_leBytes _ _) (length_leBytes _ _),
        if_neg (not_not_intro rfl),
        if_neg (not_not_intro (ofNat32_leValue _)),
        ofNat64_leValue (UInt64.ofNat _)]
      apply readPayload_wrong_header hLossless hFits
      right
      right
      exact (ofNat64_leValue_set_ne _ hq hb).symm
  | index q hq hp hb hBytes =>
      refine ⟨fun hTorn => by omega, fun _ => ?_⟩
      rw [hBytes]
      simp only [List.append_assoc]
      rw [readRecord_fields codec first _ hMagic
        (length_leBytes _ _) (length_leBytes _ _) (by simp)
        (length_leBytes _ _) (length_leBytes _ _),
        if_neg (not_not_intro rfl),
        if_neg (not_not_intro (ofNat32_leValue _)),
        ofNat64_leValue (UInt64.ofNat _)]
      apply readPayload_wrong_header hLossless hFits
      right
      left
      exact (ofNat64_leValue_set_ne _ hq hb).symm
  | checksum q hq hp hb hBytes =>
      refine ⟨fun hTorn => by omega, fun _ => ?_⟩
      rw [hBytes]
      simp only [List.append_assoc]
      rw [readRecord_fields codec first _ hMagic
        (length_leBytes _ _) (length_leBytes _ _)
        (length_leBytes _ _) (by simp) (length_leBytes _ _),
        if_neg (not_not_intro rfl),
        if_neg (not_not_intro (ofNat32_leValue _)),
        ofNat64_leValue (UInt64.ofNat _)]
      apply readPayload_wrong_header hLossless hFits
      left
      exact (ofNat32_leValue_set_ne _ hq hb).symm
  | len q hq hp hb hBytes =>
      have hField :
          (((encodeLogRecord codec entry).set p b).drop
              32).take 8 =
            (leBytes 8
              (UInt64.ofNat
                (payloadOf codec entry).length).toNat).set
              q b := by
        rw [hBytes]
        exact
          take_drop_len hMagic (length_leBytes _ _)
            (length_leBytes _ _) (length_leBytes _ _)
            (length_leBytes _ _) (by simp)
      rw [hField, hBytes]
      simp only [List.append_assoc]
      have hOutcome :=
        readRecord_damaged_len hPrefix hTrailing hFits first
          hRest (by simp) (ofNat64_leValue_set_ne _ hq hb)
      constructor
      · intro hTorn
        rw [if_pos ⟨hTorn.1, hTorn.2.2.2⟩] at hOutcome
        exact hOutcome
      · intro hSafe
        rw [if_neg
          (fun hTorn =>
            hSafe
              ⟨hTorn.1, by omega, by omega, hTorn.2⟩)]
          at hOutcome
        exact hOutcome
  | payload q hp hb hBytes =>
      refine ⟨fun hTorn => by omega, fun _ => ?_⟩
      rw [hBytes]
      simp only [List.append_assoc]
      rw [readRecord_fields codec first _ hMagic
        (length_leBytes _ _) (length_leBytes _ _)
        (length_leBytes _ _) (length_leBytes _ _)
        (length_leBytes _ _),
        if_neg (not_not_intro rfl),
        if_neg (not_not_intro (ofNat32_leValue _)),
        ofNat64_leValue (UInt64.ofNat _),
        ofNat32_leValue (checksum32 _)]
      apply readPayload_of_length
      · rw [List.length_set]
        exact toNat_payload_length hFits
      · left
        exact checksum32_set_ne (by omega) hb

end Kron

------------------------------------------------------------
-- Damaged Segments
------------------------------------------------------------

namespace Kron

open Text
open Digits

variable {codec : JsonCodec KronEntry}
variable {entry : KronEntry}

/- The bytes of a segment that holds some entries. -/
def segmentBytes
    (codec : JsonCodec KronEntry)
    (entries : List KronEntry) : Bytes :=
  entries.flatMap (encodeLogRecord codec)

theorem segmentBytes_cons
    (codec : JsonCodec KronEntry)
    (entry : KronEntry)
    (entries : List KronEntry) :
    segmentBytes codec (entry :: entries) =
      encodeLogRecord codec entry ++
        segmentBytes codec entries := rfl

theorem segmentBytes_split
    (codec : JsonCodec KronEntry)
    (front back : List KronEntry)
    (entry : KronEntry) :
    segmentBytes codec (front ++ entry :: back) =
      segmentBytes codec front ++
        (encodeLogRecord codec entry ++
          segmentBytes codec back) := by
  unfold segmentBytes
  rw [List.flatMap_append, List.flatMap_cons]

theorem head?_segmentBytes
    {entries : List KronEntry}
    (hNe : entries ≠ []) :
    (segmentBytes codec entries).head? =
      logRecordMagic.head? := by
  cases entries with
  | nil => exact (hNe rfl).elim
  | cons entry entries =>
      simp [segmentBytes, encodeLogRecord, logRecordMagic]

/- The segment with one changed byte of one record. -/
theorem set_segmentBytes
    (front back : List KronEntry)
    {p : Nat}
    (b : UInt8)
    (hp : p < (encodeLogRecord codec entry).length) :
    (segmentBytes codec (front ++ entry :: back)).set
        ((segmentBytes codec front).length + p) b =
      segmentBytes codec front ++
        ((encodeLogRecord codec entry).set p b ++
          segmentBytes codec back) := by
  rw [segmentBytes_split,
    List.set_append_right _ _ (by omega),
    Nat.add_sub_cancel_left, List.set_append_left _ _ hp]

/- A tolerated end stops the reader. -/
theorem readRecords_of_none
    {bytes : Bytes}
    {entries : List KronEntry}
    (hRead :
      readRecord codec entries.isEmpty bytes = .ok none) :
    readRecords codec bytes entries = .ok entries := by
  rw [readRecords]
  split
  · rfl
  · split
    · rename_i hError
      rw [hRead] at hError
      cases hError
    · rfl
    · rename_i hSome
      rw [hRead] at hSome
      cases hSome

theorem readRecords_of_error
    {bytes : Bytes}
    {entries : List KronEntry}
    {e : StorageError}
    (hNe : bytes ≠ [])
    (hRead :
      readRecord codec entries.isEmpty bytes = .error e) :
    readRecords codec bytes entries = .error e := by
  rw [readRecords, if_neg hNe]
  split
  · rename_i hError
    rw [hRead] at hError
    cases hError
    rfl
  · rename_i hNone
    rw [hRead] at hNone
    cases hNone
  · rename_i hSome
    rw [hRead] at hSome
    cases hSome

theorem readSegmentFile_damaged
    (hLossless : codec.Lossless)
    (hPrefix : RejectsPrefix codec)
    (hTrailing : RejectsTrailing codec)
    {front back : List KronEntry}
    (hFits :
      ∀ e ∈ front ++ entry :: back, FitsVec codec e)
    (hBack : back ≠ [])
    {p : Nat}
    {b : UInt8}
    (hp : p < (encodeLogRecord codec entry).length)
    (hb : (encodeLogRecord codec entry)[p]? ≠ some b) :
    (LooksTorn codec front.isEmpty entry
        (segmentBytes codec back) p b →
      readSegmentFile codec
          ((segmentBytes codec
            (front ++ entry :: back)).set
            ((segmentBytes codec front).length + p) b) =
        .ok front) ∧
    (¬ LooksTorn codec front.isEmpty entry
        (segmentBytes codec back) p b →
      ∃ e,
        readSegmentFile codec
            ((segmentBytes codec
              (front ++ entry :: back)).set
              ((segmentBytes codec front).length + p) b) =
          .error e) := by
  have hFront : ∀ e ∈ front, FitsVec codec e := by
    intro e hMem
    exact hFits e (List.mem_append_left _ hMem)
  have hEntry : FitsVec codec entry :=
    hFits entry
      (List.mem_append_right _ List.mem_cons_self)
  have hNe :
      (encodeLogRecord codec entry).set p b ++
          segmentBytes codec back ≠ [] := by
    intro hNil
    have hLength := congrArg List.length hNil
    rw [List.length_append, List.length_set,
      List.length_nil] at hLength
    omega
  have hRest :
      (segmentBytes codec back).head? =
        logRecordMagic.head? :=
    head?_segmentBytes hBack
  have hRead :=
    readRecord_damaged hLossless hPrefix hTrailing hEntry
      front.isEmpty hRest hp hb
  have hSkip :
      readSegmentFile codec
          ((segmentBytes codec
            (front ++ entry :: back)).set
            ((segmentBytes codec front).length + p) b) =
        readRecords codec
          ((encodeLogRecord codec entry).set p b ++
            segmentBytes codec back) front := by
    rw [set_segmentBytes front back b hp]
    exact readRecords_append hLossless hFront [] _
  rw [hSkip]
  constructor
  · intro hTorn
    exact readRecords_of_none (hRead.1 hTorn)
  · intro hSafe
    rcases hRead.2 hSafe with ⟨e, hError⟩
    exact ⟨e, readRecords_of_error hNe hError⟩

/-
  A changed byte before the last record of a segment is an
  error, unless it is in the length of a record after the
  first and makes it point past the end of the file.
-/
theorem readSegmentFile_damaged_iff
    (codec : JsonCodec KronEntry)
    (hLossless : codec.Lossless)
    (hPrefix : RejectsPrefix codec)
    (hTrailing : RejectsTrailing codec)
    (front back : List KronEntry)
    (entry : KronEntry)
    (hFits :
      ∀ e ∈ front ++ entry :: back, FitsVec codec e)
    (hBack : back ≠ [])
    (p : Nat)
    (b : UInt8)
    (hp : p < (encodeLogRecord codec entry).length)
    (hb : (encodeLogRecord codec entry)[p]? ≠ some b) :
    (∃ e,
      readSegmentFile codec
          ((segmentBytes codec
            (front ++ entry :: back)).set
            ((segmentBytes codec front).length + p) b) =
        .error e) ↔
      ¬ LooksTorn codec front.isEmpty entry
        (segmentBytes codec back) p b := by
  have hRead :=
    readSegmentFile_damaged hLossless hPrefix hTrailing
      hFits hBack hp hb
  constructor
  · rintro ⟨e, hError⟩ hTorn
    rw [hRead.1 hTorn] at hError
    cases hError
  · exact hRead.2

/- Codecs that reject what a changed length cuts out. -/
theorem rejectsPrefix_of_prefixEof
    (hEof : codec.PrefixEof) :
    RejectsPrefix codec := by
  intro entry bytes hPrefix hNe
  unfold JsonCodec.fromReader
  cases hDecode : fromUtf8 bytes with
  | none => exact ⟨_, rfl⟩
  | some s =>
      simp only
      have hBytes := utf8_of_fromUtf8 hDecode
      rcases hPrefix with ⟨rest, hRest⟩
      rw [hBytes] at hRest hNe
      rcases exists_append_of_utf8_append hRest.symm with
        ⟨t, hText, ht⟩
      have hMore : t ≠ "" := by
        intro hEmpty
        apply hNe
        unfold payloadOf
        rw [hText, hEmpty, String.append_empty]
      rcases hEof entry s t hText hMore with ⟨e, hError, _⟩
      exact ⟨e, hError⟩

theorem rejectsTrailing_of_trailingFails
    (hFails : codec.TrailingFails) :
    RejectsTrailing codec := by
  intro entry bytes hHead
  unfold JsonCodec.fromReader
  cases hDecode :
      fromUtf8 (payloadOf codec entry ++ bytes) with
  | none => exact ⟨_, rfl⟩
  | some w =>
      simp only
      have hBytes := utf8_of_fromUtf8 hDecode
      rcases exists_append_of_utf8_append hBytes.symm with
        ⟨s, hText, hs⟩
      have hLetter : utf8 "K" = [75] := by decide
      have hFirst : ∃ rest, utf8 s = utf8 "K" ++ rest := by
        rcases List.head?_eq_some_iff.mp hHead with
          ⟨rest, hRest⟩
        refine ⟨rest, ?_⟩
        rw [← hs, hRest, hLetter]
        rfl
      rcases hFirst with ⟨rest, hRest⟩
      rcases exists_append_of_utf8_append hRest with
        ⟨s', hs', _⟩
      rw [hText]
      apply hFails entry s 'K'
      · rw [hs', String.toList_append]
        rfl
      · decide

/- Three blank entries, written as the real codec does. -/
def threeRows : List (KronEntry × String) :=
  [(blankEntry 1, blankMembers "1"),
    (blankEntry 2, blankMembers "2"),
    (blankEntry 3, blankMembers "3")]

noncomputable def threeCodec : JsonCodec KronEntry :=
  tableCodec (objectTable threeRows)

theorem threeRows_bytes :
    (∀ bs ∈ objectBytes threeRows, 35 ∉ bs) ∧
      (objectBytes threeRows).Pairwise SuffixFree ∧
      (objectBytes threeRows).Pairwise fun bs bs' =>
        ¬ bs <+: bs' ∧ ¬ bs' <+: bs := by
  simp only [objectBytes, threeRows, List.map_cons,
    List.map_nil, List.forall_mem_cons,
    List.pairwise_cons]
  unfold braces blankMembers
  simp only [utf8_append]
  decide +kernel

theorem threeRows_ok :
    TableOk (objectTable threeRows) :=
  tableOk_of_bytes threeRows_bytes.1 threeRows_bytes.2.1

theorem threeRows_prefixFree :
    PrefixFreeTable (objectTable threeRows) :=
  prefixFreeTable_of_bytes threeRows_bytes.2.2

/- The payloads of the three entries. -/
theorem length_payloadOf_three
    (entry : KronEntry)
    (hMem :
      entry ∈ [blankEntry 1, blankEntry 2, blankEntry 3]) :
    (payloadOf threeCodec entry).length = 75 := by
  have hTexts :
      ∀ text ∈ ["1", "2", "3"],
        (utf8 (braces (blankMembers text))).length =
          75 := by
    unfold braces blankMembers
    simp only [utf8_append]
    decide +kernel
  have hChars :
      ∃ text ∈ ["1", "2", "3"],
        tableChars (objectTable threeRows) entry =
          (braces (blankMembers text)).toList := by
    simp only [List.mem_cons, List.not_mem_nil,
      or_false] at hMem
    rcases hMem with rfl | rfl | rfl
    · exact ⟨"1", by simp, by
        simp [tableChars, objectTable, threeRows]⟩
    · exact ⟨"2", by simp, by
        simp [tableChars, objectTable, threeRows,
          blankEntry, firstTerm]⟩
    · exact ⟨"3", by simp, by
        simp [tableChars, objectTable, threeRows,
          blankEntry, firstTerm]⟩
  rcases hChars with ⟨text, hText, hEq⟩
  unfold payloadOf threeCodec
  simp only [tableCodec, hEq, String.ofList_toList]
  exact hTexts text hText

theorem fitsVec_three :
    ∀ e ∈ [blankEntry 1, blankEntry 2, blankEntry 3],
      FitsVec threeCodec e := by
  intro e hMem
  unfold FitsVec
  rw [length_payloadOf_three e hMem]
  decide

/- The length of the second record, with a changed byte. -/
theorem looksTorn_second :
    LooksTorn threeCodec false (blankEntry 2)
      (segmentBytes threeCodec [blankEntry 3]) 33 1 := by
  have hLen :=
    length_payloadOf_three (blankEntry 2) (by simp)
  have hRest :
      (segmentBytes threeCodec [blankEntry 3]).length =
        115 := by
    simp only [segmentBytes, List.flatMap_cons,
      List.flatMap_nil, List.append_nil]
    rw [length_encodeLogRecord,
      length_payloadOf_three _ (by simp)]
  refine ⟨rfl, by omega, by omega, ?_⟩
  rw [hRest, List.drop_set, if_neg (by omega),
    List.take_set, encodeLogRecord_fields,
    take_drop_len rfl (length_leBytes _ _)
      (length_leBytes _ _) (length_leBytes _ _)
      (length_leBytes _ _) (length_leBytes _ _), hLen]
  decide +kernel

/- The byte that is changed there. -/
theorem second_byte_ne :
    (encodeLogRecord threeCodec (blankEntry 2))[33]? ≠
      some 1 := by
  have hLen :=
    length_payloadOf_three (blankEntry 2) (by simp)
  intro hEq
  have hField :
      (((encodeLogRecord threeCodec (blankEntry 2)).drop
          32).take 8)[1]? = some 1 := by
    rw [List.getElem?_take, if_pos (by omega),
      List.getElem?_drop]
    exact hEq
  rw [encodeLogRecord_fields,
    take_drop_len rfl (length_leBytes _ _)
      (length_leBytes _ _) (length_leBytes _ _)
      (length_leBytes _ _) (length_leBytes _ _), hLen]
    at hField
  revert hField
  decide +kernel

/-
  The second of three records says that it is 256 bytes
  longer than it is: the reader gives the first entry only.
-/
theorem readSegmentFile_second_length :
    ∃ front entry back p b,
      threeCodec.Lossless ∧ RejectsPrefix threeCodec ∧
        RejectsTrailing threeCodec ∧
        (∀ e ∈ front ++ entry :: back,
          FitsVec threeCodec e) ∧
        back ≠ [] ∧
        p < (encodeLogRecord threeCodec entry).length ∧
        (encodeLogRecord threeCodec entry)[p]? ≠ some b ∧
        readSegmentFile threeCodec
            ((segmentBytes threeCodec
              (front ++ entry :: back)).set
              ((segmentBytes threeCodec front).length + p)
              b) =
          .ok front ∧
        front.length < (front ++ entry :: back).length := by
  have hLossless : threeCodec.Lossless :=
    tableCodec_lossless threeRows_ok
  have hPrefix : RejectsPrefix threeCodec :=
    rejectsPrefix_of_prefixEof
      (tableCodec_prefixEof threeRows_ok
        threeRows_prefixFree)
  have hTrailing : RejectsTrailing threeCodec :=
    rejectsTrailing_of_trailingFails
      (tableCodec_trailingFails threeRows_ok
        threeRows_prefixFree)
  have hLength :
      33 <
        (encodeLogRecord threeCodec
          (blankEntry 2)).length := by
    rw [length_encodeLogRecord]
    omega
  refine
    ⟨[blankEntry 1], blankEntry 2, [blankEntry 3], 33, 1,
      hLossless, hPrefix, hTrailing, fitsVec_three,
      List.cons_ne_nil _ _, hLength, second_byte_ne, ?_,
      by decide⟩
  exact
    (readSegmentFile_damaged hLossless hPrefix hTrailing
      fitsVec_three (List.cons_ne_nil _ _) hLength
      second_byte_ne).1 looksTorn_second

/- A changed magic is found out in the second record. -/
theorem readSegmentFile_second_magic :
    ∃ e,
      readSegmentFile threeCodec
          ((segmentBytes threeCodec
            [blankEntry 1, blankEntry 2,
              blankEntry 3]).set
            ((segmentBytes threeCodec
              [blankEntry 1]).length + 0) 0) =
        .error e := by
  apply (readSegmentFile_damaged_iff threeCodec
    (tableCodec_lossless threeRows_ok)
    (rejectsPrefix_of_prefixEof
      (tableCodec_prefixEof threeRows_ok
        threeRows_prefixFree))
    (rejectsTrailing_of_trailingFails
      (tableCodec_trailingFails threeRows_ok
        threeRows_prefixFree))
    [blankEntry 1] [blankEntry 3] (blankEntry 2)
    fitsVec_three (List.cons_ne_nil _ _) 0 0
    (by rw [length_encodeLogRecord]; omega)
    (by simp [encodeLogRecord, logRecordMagic])).mpr
  intro hTorn
  have hLate := hTorn.2.1
  omega

end Kron

------------------------------------------------------------
-- Segments Cut Short
------------------------------------------------------------

namespace Kron

open Text
open Digits
open FileSystem

variable {codec : JsonCodec KronEntry}
variable {entry : KronEntry}

/- Cutting a record inside its payload. -/
theorem take_fields
    {magic version term index checksum len payload : Bytes}
    (hMagic : magic.length = 8)
    (hVersion : version.length = 4)
    (hTerm : term.length = 8)
    (hIndex : index.length = 8)
    (hChecksum : checksum.length = 4)
    (hLen : len.length = 8)
    {n : Nat}
    (hn : 40 ≤ n) :
    (magic ++ (version ++ (term ++ (index ++
        (checksum ++ (len ++ payload)))))).take n =
      magic ++ (version ++ (term ++ (index ++
        (checksum ++ (len ++ payload.take (n - 40)))))) := by
  have hHead :
      (magic ++ version ++ term ++ index ++ checksum ++
          len).length = 40 := by
    simp only [List.length_append]
    omega
  have hAssoc :
      ∀ rest : Bytes,
        magic ++ (version ++ (term ++ (index ++
            (checksum ++ (len ++ rest))))) =
          (magic ++ version ++ term ++ index ++ checksum ++
            len) ++ rest := by
    intro rest
    simp only [List.append_assoc]
  rw [hAssoc, hAssoc, List.take_append, hHead,
    List.take_of_length_le (by omega)]

/- A record cut short ends a segment that has another one. -/
theorem readRecord_take
    (hFits : FitsVec codec entry)
    (first : Bool)
    {n : Nat}
    (hn : n < (encodeLogRecord codec entry).length) :
    ∃ message,
      readRecord codec first
          ((encodeLogRecord codec entry).take n) =
        if first then
          .error (corruptStore message)
        else
          .ok none := by
  have hLength :
      ((encodeLogRecord codec entry).take n).length = n := by
    rw [List.length_take]
    omega
  by_cases hHeader : n < 40
  · -- the header itself is cut
    unfold readRecord
    have hShort :
        ((encodeLogRecord codec entry).take n).length <
          logRecordHeaderBytes := by
      rw [hLength, logRecordHeaderBytes]
      omega
    rw [if_pos hShort]
    exact ⟨_, rfl⟩
  · have hMagic : logRecordMagic.length = 8 := rfl
    have hTake :
        (encodeLogRecord codec entry).take n =
          logRecordMagic ++
            (leBytes 4 storeFormatVersion.toNat ++
              (leBytes 8 entry.logId.term.toNat ++
                (leBytes 8 entry.logId.index.toNat ++
                  (leBytes 4
                      (checksum32
                        (payloadOf codec entry)).toNat ++
                    (leBytes 8
                        (UInt64.ofNat
                          (payloadOf codec
                            entry).length).toNat ++
                      (payloadOf codec entry).take
                        (n - 40)))))) := by
      rw [encodeLogRecord_fields]
      exact
        take_fields hMagic (length_leBytes _ _)
          (length_leBytes _ _) (length_leBytes _ _)
          (length_leBytes _ _) (length_leBytes _ _)
          (by omega)
    rw [length_encodeLogRecord] at hn
    rw [hTake, readRecord_fields codec first _ hMagic
      (length_leBytes _ _) (length_leBytes _ _)
      (length_leBytes _ _) (length_leBytes _ _)
      (length_leBytes _ _),
      if_neg (not_not_intro rfl),
      if_neg (not_not_intro (ofNat32_leValue _)),
      ofNat64_leValue (UInt64.ofNat _)]
    unfold readPayload
    have hShort :
        ((payloadOf codec entry).take (n - 40)).length <
          (UInt64.ofNat
            (payloadOf codec entry).length).toNat := by
      rw [toNat_payload_length hFits, List.length_take]
      omega
    rw [if_pos hShort]
    exact ⟨_, rfl⟩

/- The entries whose records are in the first `n` bytes. -/
def completeIn
    (codec : JsonCodec KronEntry) :
    List KronEntry → Nat → List KronEntry
| [], _ => []
| entry :: entries, n =>
    if (encodeLogRecord codec entry).length ≤ n then
      entry ::
        completeIn codec entries
          (n - (encodeLogRecord codec entry).length)
    else
      []

/- One record is read before the bytes after it. -/
theorem readRecords_encode
    (hLossless : codec.Lossless)
    (hFits : FitsVec codec entry)
    (before : List KronEntry)
    (rest : Bytes) :
    readRecords codec
        (encodeLogRecord codec entry ++ rest) before =
      readRecords codec rest (before ++ [entry]) := by
  have hOne : ∀ e ∈ [entry], FitsVec codec e := by
    intro e hMem
    rw [List.mem_singleton.mp hMem]
    exact hFits
  have hRead := readRecords_append hLossless hOne before rest
  rw [List.flatMap_singleton] at hRead
  exact hRead

/- After the first record, a cut segment is read up to the cut. -/
theorem readRecords_take
    (hLossless : codec.Lossless)
    {entries : List KronEntry}
    (hFits : ∀ e ∈ entries, FitsVec codec e)
    {before : List KronEntry}
    (hBefore : before ≠ [])
    (n : Nat) :
    readRecords codec
        ((segmentBytes codec entries).take n) before =
      .ok (before ++ completeIn codec entries n) := by
  induction entries generalizing before n with
  | nil =>
      have hNil :
          (segmentBytes codec []).take n = [] := by
        simp [segmentBytes]
      rw [hNil, readRecords, if_pos rfl]
      simp [completeIn]
  | cons entry entries ih =>
      rcases List.forall_mem_cons.mp hFits with
        ⟨hEntry, hRest⟩
      simp only [completeIn]
      by_cases hIn :
          (encodeLogRecord codec entry).length ≤ n
      · rw [if_pos hIn, segmentBytes_cons,
          List.take_append, List.take_of_length_le hIn]
        rw [readRecords_encode hLossless hEntry,
          ih hRest (by simp)]
        simp
      · rw [if_neg hIn, segmentBytes_cons,
          List.take_append_of_le_length (by omega)]
        have hCut :
            n < (encodeLogRecord codec entry).length := by
          omega
        rcases readRecord_take hEntry before.isEmpty
            hCut with ⟨message, hRead⟩
        rw [if_neg (by simpa using hBefore)] at hRead
        rw [readRecords_of_none hRead, List.append_nil]

/-
  A segment cut inside its first record is an error. Cut
  anywhere else, it is read as one that holds less.
-/
theorem readSegmentFile_take
    (hLossless : codec.Lossless)
    {entries : List KronEntry}
    (hFits : ∀ e ∈ entry :: entries, FitsVec codec e)
    (n : Nat) :
    (∃ e,
      readSegmentFile codec
          ((segmentBytes codec
            (entry :: entries)).take n) =
        .error e) ↔
      0 < n ∧
        n < (encodeLogRecord codec entry).length := by
  rcases List.forall_mem_cons.mp hFits with
    ⟨hEntry, hRest⟩
  unfold readSegmentFile
  by_cases hIn : (encodeLogRecord codec entry).length ≤ n
  · rw [segmentBytes_cons, List.take_append,
      List.take_of_length_le hIn,
      readRecords_encode hLossless hEntry,
      readRecords_take hLossless hRest (by simp)]
    constructor
    · rintro ⟨e, hError⟩
      cases hError
    · intro hCut
      omega
  · rw [segmentBytes_cons,
      List.take_append_of_le_length (by omega)]
    constructor
    · rintro ⟨e, hError⟩
      refine ⟨?_, by omega⟩
      by_contra hZero
      have hNil : n = 0 := by omega
      subst hNil
      rw [List.take_zero, readRecords, if_pos rfl] at hError
      cases hError
    · intro hCut
      rcases readRecord_take hEntry
          (List.isEmpty ([] : List KronEntry))
          hCut.2 with ⟨message, hRead⟩
      refine ⟨_, readRecords_of_error ?_ hRead⟩
      intro hNil
      have hLength := congrArg List.length hNil
      rw [List.length_take, List.length_nil] at hLength
      omega

/- All segments are there and are read, or none is. -/
theorem readLogSegments_ok_iff
    (codec : JsonCodec KronEntry)
    (dataDir : String)
    (dir : StoreDir)
    (segments : List SegmentMeta)
    (logs : BTreeMap UInt64 KronEntry) :
    (∃ logs',
      readLogSegments codec dataDir dir segments logs =
        .ok logs') ↔
      ∀ segment ∈ segments, ∃ bytes entries,
        dir[logPath segment.file]? = some bytes ∧
          readSegmentFile codec bytes = .ok entries := by
  induction segments generalizing logs with
  | nil => simp [readLogSegments]
  | cons segment segments ih =>
      rw [List.forall_mem_cons]
      simp only [readLogSegments]
      cases hGet : dir[logPath segment.file]? with
      | none => simp
      | some bytes =>
          cases hRead : readSegmentFile codec bytes with
          | error e => simp [hRead]
          | ok entries =>
              simp only [hRead]
              rw [ih]
              simp [hRead]

/- A result is an error or a value. -/
theorem exists_error_iff
    {ε α : Type}
    (result : Except ε α) :
    (∃ e, result = .error e) ↔
      ¬ ∃ a, result = .ok a := by
  cases result with
  | error e => simp
  | ok a => simp

/-
  The segment is cut inside the record of the entry that it
  starts with.
-/
def CutInFirst
    (codecs : StoreCodecs)
    (store : PersistedRaftStore)
    (segment : SegmentMeta)
    (n : Nat) : Prop :=
  ∃ entry,
    store.logs[segment.firstIndex]? = some entry ∧
      0 < n ∧
      n < (encodeLogRecord codecs.entry entry).length

variable {codecs : StoreCodecs}
variable {store : PersistedRaftStore}
variable {dir : StoreDir}

/- Every listed segment holds one of the chunks. -/
theorem exists_chunk_of_mem
    {segments : List SegmentMeta}
    {chunks : List (List KronEntry)}
    (hHolds :
      List.Forall₂ (SegmentHolds codecs.entry dir) segments
        chunks)
    {segment : SegmentMeta}
    (hSegment : segment ∈ segments) :
    ∃ chunk ∈ chunks,
      SegmentHolds codecs.entry dir segment chunk := by
  induction hHolds with
  | nil => cases hSegment
  | cons hHead _ ih =>
      rcases List.mem_cons.mp hSegment with rfl | hRest
      · exact ⟨_, List.mem_cons_self, hHead⟩
      · rcases ih hRest with ⟨chunk, hMem, hChunk⟩
        exact ⟨chunk, List.mem_cons_of_mem _ hMem, hChunk⟩

/- Reading the segments when one of them is cut. -/
theorem readLogSegments_cut
    (dataDir : String)
    (hLossless : codecs.Lossless)
    (hKeyed : KeyedByIndex store.logs)
    (hFits : store.Fits codecs)
    {segments : List SegmentMeta}
    {chunks : List (List KronEntry)}
    (hChunks : chunks.flatten = store.logs.vals)
    (hHolds :
      List.Forall₂ (SegmentHolds codecs.entry dir) segments
        chunks)
    {segment : SegmentMeta}
    (hSegment : segment ∈ segments)
    {content : Bytes}
    (hContent :
      dir[logPath segment.file]? = some content)
    (n : Nat) :
    (∃ e,
      readLogSegments codecs.entry dataDir
          (dir.insert (logPath segment.file)
            (content.take n)) segments ∅ =
        .error e) ↔
      CutInFirst codecs store segment n := by
  have hChunkFits :
      ∀ chunk ∈ chunks, ∀ e ∈ chunk,
        FitsVec codecs.entry e := by
    intro chunk hChunk e hMem
    apply hFits
    rw [← hChunks]
    exact List.mem_flatten_of_mem hChunk hMem
  rcases exists_chunk_of_mem hHolds hSegment with
    ⟨chunk, hChunk, hHeld⟩
  rcases hHeld.starts with ⟨first, rest, rfl, hFirst⟩
  have hBytes :
      content =
        segmentBytes codecs.entry (first :: rest) :=
    Option.some.inj (hContent.symm.trans hHeld.content)
  have hGet :
      store.logs[segment.firstIndex]? = some first := by
    have hVal : first ∈ store.logs.vals := by
      rw [← hChunks]
      exact
        List.mem_flatten_of_mem hChunk List.mem_cons_self
    rcases (BTreeMap.mem_vals_iff _ _).mp hVal with
      ⟨index, hIndex⟩
    rw [← hFirst, hKeyed index first hIndex]
    exact hIndex
  have hCut :=
    readSegmentFile_take hLossless.entry
      (hChunkFits _ hChunk) n
  have hWhere :
      CutInFirst codecs store segment n ↔
        0 < n ∧
          n <
            (encodeLogRecord codecs.entry
              first).length := by
    unfold CutInFirst
    simp [hGet]
  rw [hWhere, ← hCut, ← hBytes, exists_error_iff,
    exists_error_iff, readLogSegments_ok_iff]
  constructor
  · -- the other segments are read as before
    intro hSome hRead
    apply hSome
    intro segment' hSegment'
    by_cases hPath :
        logPath segment.file = logPath segment'.file
    · rcases hRead with ⟨entries, hRead⟩
      refine ⟨content.take n, entries, ?_, hRead⟩
      rw [BTreeMap.get_insert, if_pos hPath]
    · rcases exists_chunk_of_mem hHolds hSegment' with
        ⟨chunk', hChunk', hHeld'⟩
      refine
        ⟨_, chunk', ?_,
          readSegmentFile_encode hLossless.entry
            (hChunkFits _ hChunk')⟩
      rw [BTreeMap.get_insert, if_neg hPath]
      exact hHeld'.content
  · intro hError hAll
    apply hError
    rcases hAll segment hSegment with
      ⟨bytes, entries, hBytes', hRead⟩
    rw [BTreeMap.get_insert, if_pos rfl] at hBytes'
    cases hBytes'
    exact ⟨entries, hRead⟩

/- What the segments hold after a store has been written. -/
theorem holds_written
    (hKeyed : KeyedByIndex store.logs)
    (dir : StoreDir)
    (order : List String) :
    ∃ chunks,
      chunks.flatten = store.logs.vals ∧
        List.Forall₂
          (SegmentHolds codecs.entry
            (runAll dir (persistOps codecs order store)))
          (manifestOf codecs store).segments chunks := by
  rw [persistOps_segments]
  exact holds_persist hKeyed _

/-
  A changed segment changes nothing else that is read when
  the store is opened.
-/
theorem openStore_insert_ok_iff
    {dataDir : String}
    {manifest : Manifest}
    (hOpens : Opens codecs dataDir dir store manifest)
    {path : String}
    (hPath : isSegmentPath path = true)
    (bytes : Bytes) :
    (∃ store',
      openStore codecs dataDir (dir.insert path bytes) =
        .ok store') ↔
      ∃ logs,
        readLogSegments codecs.entry dataDir
            (dir.insert path bytes) manifest.segments ∅ =
          .ok logs := by
  have hOther :
      ∀ path', isSegmentPath path' = false →
        (dir.insert path bytes)[path']? =
          dir[path']? := by
    intro path' hFalse
    apply BTreeMap.get_insert_ne
    intro hEq
    rw [hEq, hFalse] at hPath
    cases hPath
  have hFile :
      ∀ file : StoreFile,
        (dir.insert path bytes)[file.path]? =
          dir[file.path]? :=
    fun file =>
      hOther _ (StoreFile.not_isSegmentPath file).1
  have hListed :
      readManifest codecs (dir.insert path bytes) =
        .ok manifest := by
    rw [readManifest_congr codecs (hFile .manifest)]
    exact hOpens.listed
  constructor
  · rintro ⟨store', hOpen⟩
    rcases (openStore_eq_ok_iff store').mp hOpen with
      ⟨manifest', hOpens'⟩
    have hSame : manifest' = manifest := by
      have hEq := hOpens'.listed.symm.trans hListed
      cases hEq
      rfl
    subst hSame
    exact ⟨store'.logs, hOpens'.logs⟩
  · rintro ⟨logs, hLogs⟩
    refine
      ⟨{ store with logs := logs },
        (openStore_eq_ok_iff _).mpr
          ⟨manifest, ?_, hListed, hLogs, ?_, ?_, ?_,
            hOpens.purged⟩⟩
    · rw [hOther legacyPath (by decide)]
      exact hOpens.legacy
    · rw [readState_congr codecs (hFile .state)]
      exact hOpens.state
    · rw [readJsonOptional_congr codecs.vote (hFile .vote)]
      exact hOpens.vote
    · rw [readJsonOptional_congr codecs.committed
        (hFile .committed)]
      exact hOpens.committed

/-
  A store with a segment that was cut short fails to open
  exactly when the cut is inside the first record of the
  segment. Cut elsewhere, the store opens with fewer entries,
  wherever the segment stands in the log.
-/
theorem openStore_cut_iff
    (codecs : StoreCodecs)
    (hLossless : codecs.Lossless)
    (dataDir : String)
    (dir : StoreDir)
    (hLegacy : dir[legacyPath]? = none)
    (order : List String)
    (hOrder : order.Perm (segmentPaths dir))
    (store : PersistedRaftStore)
    (hKeyed : KeyedByIndex store.logs)
    (hFits : store.Fits codecs)
    (segment : SegmentMeta)
    (hSegment :
      segment ∈ (manifestOf codecs store).segments)
    (content : Bytes)
    (hContent :
      (runAll dir (persistOps codecs order store))[logPath
          segment.file]? =
        some content)
    (n : Nat) :
    ((∃ e,
      readLogSegments codecs.entry dataDir
          ((runAll dir (persistOps codecs order
            store)).insert (logPath segment.file)
            (content.take n))
          (manifestOf codecs store).segments ∅ =
        .error e) ↔
      CutInFirst codecs store segment n) ∧
    ((∃ e,
      openStore codecs dataDir
          ((runAll dir (persistOps codecs order
            store)).insert (logPath segment.file)
            (content.take n)) =
        .error e) ↔
      CutInFirst codecs store segment n) := by
  have hOpens :=
    openStore_persist dataDir hLossless hLegacy hOrder
      hKeyed hFits
  rcases holds_written hKeyed dir order with
    ⟨chunks, hChunks, hHolds⟩
  have hCut :=
    readLogSegments_cut dataDir hLossless hKeyed hFits
      hChunks hHolds hSegment hContent n
  refine ⟨hCut, ?_⟩
  rcases exists_chunk_of_mem hHolds hSegment with
    ⟨chunk, _, hHeld⟩
  have hPath :
      isSegmentPath (logPath segment.file) = true := by
    rw [hHeld.named]
    exact isSegmentPath_segmentFileName _ _
  rw [← hCut, exists_error_iff, exists_error_iff,
    openStore_insert_ok_iff hOpens hPath]

end Kron

------------------------------------------------------------
-- A Log Of Two Segments
------------------------------------------------------------

namespace Kron

open Text
open FileSystem
open SegmentWriter

/- A log is written in the order of its entries. -/
theorem vals_insertEntries
    {entries : List KronEntry}
    (hSorted : Ascending entries) :
    (insertEntries ∅ entries).vals = entries := by
  have hKeyed :=
    keyedByIndex_insertEntries keyedByIndex_empty entries
  have hVals := ascending_vals hKeyed
  have hNodup :
      ∀ {l : List KronEntry}, Ascending l → l.Nodup := by
    intro l hl
    refine hl.imp ?_
    intro e e' hLt hEq
    rw [hEq] at hLt
    exact UInt64.lt_irrefl _ hLt
  have hMem :
      ∀ e, e ∈ (insertEntries ∅ entries).vals ↔
        e ∈ entries := by
    intro e
    rw [BTreeMap.mem_vals_iff]
    constructor
    · rintro ⟨index, hGet⟩
      by_contra hNot
      by_cases hIndex :
          ∃ e' ∈ entries, e'.logId.index = index
      · rcases hIndex with ⟨e', hMem', rfl⟩
        rw [get_insertEntries_of_mem ∅ hSorted hMem']
          at hGet
        cases hGet
        exact hNot hMem'
      · rw [get_insertEntries_of_ne] at hGet
        · simp at hGet
        · intro e' hMem' hEq
          exact hIndex ⟨e', hMem', hEq⟩
    · intro hIn
      exact
        ⟨e.logId.index,
          get_insertEntries_of_mem ∅ hSorted hIn⟩
  have hPerm :=
    (List.perm_ext_iff_of_nodup (hNodup hVals)
      (hNodup hSorted)).mpr hMem
  apply hPerm.eq_of_pairwise _ hVals hSorted
  intro e e' _ _ hLt hGt
  exact (UInt64.lt_irrefl _ (UInt64.lt_trans hLt hGt)).elim

/- A record of the size of a segment is alone in it. -/
theorem segments_of_long
    (codec : JsonCodec KronEntry)
    {first second : KronEntry}
    (hLong :
      logSegmentMaxBytes ≤
        (encodeLogRecord codec first).length) :
    (writeSegments codec [first, second]).segments =
      [first, second].map fun e =>
        { firstIndex := e.logId.index
          lastIndex := e.logId.index
          file :=
            segmentFileName e.logId.index e.logId.index } := by
  simp [writeSegments, writeEntry, isFull, openAt, append,
    close, SegmentWriter.empty, hLong]

/- A worker with a long name. -/
def longName
    (n : Nat) : String :=
  String.ofList (List.replicate n 'a')

def longEntry
    (n : Nat) : KronEntry where
  logId := firstTerm 1
  payload := .normal (.unregisterWorker (longName n))

/- The members of the JSON of `longEntry`. -/
def longMembers
    (n : Nat) : String :=
  "\"log_id\":\x7b\"leader_id\":" ++
    "\x7b\"term\":1,\"node_id\":1\x7d,\"index\":1\x7d," ++
    "\"payload\":\x7b\"Normal\":\x7b\"type\":" ++
    "\"UNREGISTER_WORKER\",\"worker_id\":\"" ++
    longName n ++ "\"\x7d\x7d"

def longRows
    (n : Nat) : List (KronEntry × String) :=
  [(longEntry n, longMembers n),
    (blankEntry 2, blankMembers "2")]

theorem utf8_longName
    (n : Nat) :
    utf8 (longName n) = List.replicate n 97 := by
  rw [utf8_eq_flatMap]
  unfold longName
  rw [String.toList_ofList]
  induction n with
  | zero => rfl
  | succ n ih =>
      rw [List.replicate_succ, List.flatMap_cons, ih,
        List.replicate_succ]
      rfl

/- Texts with different bytes before the last one. -/
theorem suffixFree_of_ends
    {a b c : UInt8}
    (hNe : a ≠ b)
    (bs bs' : Bytes) :
    SuffixFree (bs ++ [a, c]) (bs' ++ [b, c]) := by
  constructor
  · intro hSuffix
    have hReverse := List.reverse_prefix.mpr hSuffix
    simp [List.cons_prefix_cons, hNe] at hReverse
  · intro hSuffix
    have hReverse := List.reverse_prefix.mpr hSuffix
    simp [List.cons_prefix_cons, hNe.symm] at hReverse

/- The bytes around the name in the text of `longEntry`. -/
theorem utf8_longMembers :
    ∃ front back : Bytes,
      35 ∉ front ∧ 35 ∉ back ∧
        front.length + back.length < 2 ^ 32 ∧
        ∀ n,
          utf8 (braces (longMembers n)) =
            front ++ List.replicate n 97 ++
              (back ++ [125, 125]) := by
  refine
    ⟨utf8
        ("\x7b" ++
          ("\"log_id\":\x7b\"leader_id\":" ++
            "\x7b\"term\":1,\"node_id\":1\x7d,\"index\":1\x7d," ++
            "\"payload\":\x7b\"Normal\":\x7b\"type\":" ++
            "\"UNREGISTER_WORKER\",\"worker_id\":\"")),
      utf8 "\"\x7d", ?_, ?_, ?_, ?_⟩
  · simp only [utf8_append]
    decide +kernel
  · decide +kernel
  · simp only [utf8_append]
    decide +kernel
  · intro n
    have hEnd :
        utf8 "\"\x7d\x7d" ++ utf8 "\x7d" =
          utf8 "\"\x7d" ++ [125, 125] := by
      decide +kernel
    unfold braces longMembers
    simp only [utf8_append, utf8_longName,
      List.append_assoc, hEnd]

theorem longRows_ok
    (n : Nat) :
    TableOk (objectTable (longRows n)) := by
  rcases utf8_longMembers with
    ⟨front, back, hFront, hBack, _, hBytes⟩
  have hBlank :
      ∃ bs : Bytes,
        35 ∉ bs ∧
          utf8 (braces (blankMembers "2")) =
            bs ++ [34, 125] := by
    refine
      ⟨(utf8 (braces (blankMembers "2"))).take 73, ?_, ?_⟩
    · unfold braces blankMembers
      simp only [utf8_append]
      decide +kernel
    · unfold braces blankMembers
      simp only [utf8_append]
      decide +kernel
  rcases hBlank with ⟨bs, hBs, hText⟩
  apply tableOk_of_bytes
  · simp only [objectBytes, longRows, List.map_cons,
      List.map_nil, List.forall_mem_cons, hBytes, hText]
    refine ⟨?_, ?_, by simp⟩
    · simp [hFront, hBack]
    · simp [hBs]
  · simp only [objectBytes, longRows, List.map_cons,
      List.map_nil, hBytes, hText]
    rw [List.pairwise_pair, ← List.append_assoc]
    exact suffixFree_of_ends (by decide) _ _

/- The manifest of a log of two segments. -/
def twoSegments : Manifest where
  formatVersion := storeFormatVersion
  activeSnapshot := none
  lastPurgedLogId := none
  segments :=
    [{ firstIndex := 1
       lastIndex := 1
       file := segmentFileName 1 1 },
      { firstIndex := 2
        lastIndex := 2
        file := segmentFileName 2 2 }]

def segmentMembers
    (index : String) : String :=
  "    \x7b\n      \"first_index\": " ++ index ++
    ",\n      \"last_index\": " ++ index ++
    ",\n      \"file\": \"000000000000000" ++ index ++
    "-000000000000000" ++ index ++ ".seg\"\n    \x7d"

def twoManifestRows : List (Manifest × String) :=
  [(.initial, manifestMembers "[]"),
    (twoSegments,
      manifestMembers
        ("[\n" ++ segmentMembers "1" ++ ",\n" ++
          segmentMembers "2" ++ "\n  ]"))]

theorem twoManifestRows_bytes :
    (∀ bs ∈ objectBytes twoManifestRows, 35 ∉ bs) ∧
      (objectBytes twoManifestRows).Pairwise
        SuffixFree := by
  simp only [objectBytes, twoManifestRows, List.map_cons,
    List.map_nil, List.forall_mem_cons,
    List.pairwise_cons]
  unfold braces manifestMembers segmentMembers
  simp only [utf8_append]
  decide +kernel

/- The codecs of a store with a long entry. -/
noncomputable def longCodecs
    (n : Nat) : StoreCodecs :=
  { blankCodecs with
    manifest := tableCodec (objectTable twoManifestRows)
    entry := tableCodec (objectTable (longRows n)) }

theorem longCodecs_lossless
    (n : Nat) :
    (longCodecs n).Lossless :=
  { blankCodecs_lossless with
    manifest :=
      tableCodec_losslessPretty
        (tableOk_of_bytes twoManifestRows_bytes.1
          twoManifestRows_bytes.2)
    entry := tableCodec_lossless (longRows_ok n) }

/- The lengths of the payloads of the two entries. -/
theorem length_payloadOf_long
    {n : Nat}
    (hn : n < 2 ^ 62) :
    n ≤
        (payloadOf (longCodecs n).entry
          (longEntry n)).length ∧
      FitsVec (longCodecs n).entry (longEntry n) ∧
      FitsVec (longCodecs n).entry (blankEntry 2) := by
  rcases utf8_longMembers with
    ⟨front, back, _, hBack, hShort, hBytes⟩
  have hLong :
      payloadOf (longCodecs n).entry (longEntry n) =
        front ++ List.replicate n 97 ++
          (back ++ [125, 125]) := by
    have hChars :
        tableChars (objectTable (longRows n))
            (longEntry n) =
          (braces (longMembers n)).toList := by
      simp [tableChars, objectTable, longRows]
    unfold payloadOf longCodecs
    simp only [tableCodec, hChars, String.ofList_toList]
    exact hBytes n
  have hBlank :
      payloadOf (longCodecs n).entry (blankEntry 2) =
        utf8 (braces (blankMembers "2")) := by
    have hChars :
        tableChars (objectTable (longRows n))
            (blankEntry 2) =
          (braces (blankMembers "2")).toList := by
      simp [tableChars, objectTable, longRows, longEntry,
        blankEntry]
    unfold payloadOf longCodecs
    simp only [tableCodec, hChars, String.ofList_toList]
  unfold FitsVec
  rw [hLong, hBlank]
  simp only [List.length_append, List.length_replicate]
  refine ⟨by omega, by simp; omega, ?_⟩
  unfold braces blankMembers
  simp only [utf8_append]
  decide +kernel

/- The log of a long entry and a blank one. -/
def longStore
    (n : Nat) : PersistedRaftStore :=
  { PersistedRaftStore.default with
    logs := insertEntries ∅ [longEntry n, blankEntry 2] }

theorem vals_longStore
    (n : Nat) :
    (longStore n).logs.vals =
      [longEntry n, blankEntry 2] := by
  apply vals_insertEntries
  have hLt : (1 : UInt64) < 2 := by decide
  unfold Ascending
  rw [List.pairwise_pair]
  exact hLt

theorem keyed_longStore
    (n : Nat) :
    KeyedByIndex (longStore n).logs :=
  keyedByIndex_insertEntries keyedByIndex_empty _

theorem get_longStore
    (n : Nat) :
    (longStore n).logs[(1 : UInt64)]? =
      some (longEntry n) := by
  have hMem : longEntry n ∈ (longStore n).logs.vals := by
    rw [vals_longStore]
    exact List.mem_cons_self
  rcases (BTreeMap.mem_vals_iff _ _).mp hMem with
    ⟨index, hIndex⟩
  have hEq := keyed_longStore n index _ hIndex
  rw [← hEq] at hIndex
  exact hIndex

theorem fits_longStore
    {n : Nat}
    (hn : n < 2 ^ 62) :
    (longStore n).Fits (longCodecs n) := by
  have hFits := length_payloadOf_long hn
  intro e hMem
  rw [vals_longStore] at hMem
  simp only [List.mem_cons, List.not_mem_nil,
    or_false] at hMem
  rcases hMem with rfl | rfl
  · exact hFits.2.1
  · exact hFits.2.2

theorem manifestOf_longStore
    {n : Nat}
    (hLong : logSegmentMaxBytes ≤ n)
    (hn : n < 2 ^ 62) :
    manifestOf (longCodecs n) (longStore n) =
      twoSegments := by
  have hRecord :
      logSegmentMaxBytes ≤
        (encodeLogRecord (longCodecs n).entry
          (longEntry n)).length := by
    have hLength := (length_payloadOf_long hn).1
    rw [length_encodeLogRecord]
    omega
  unfold manifestOf
  rw [vals_longStore, segments_of_long _ hRecord]
  rfl

/- The directory of the store when it is new. -/
noncomputable def longDir
    (n : Nat) : StoreDir :=
  runAll ∅ (openOps (longCodecs n) ∅)

theorem legacy_longDir
    (n : Nat) :
    (longDir n)[legacyPath]? = none := by
  rcases (openStore_eq_ok_iff _).mp
      (openStore_empty (longCodecs n) "/data") with
    ⟨manifest, hOpens⟩
  exact
    (opens_openOps (longCodecs_lossless n) hOpens).legacy

/- The directory with the two segments. -/
noncomputable def twoSegmentDir
    (n : Nat) : StoreDir :=
  runAll (longDir n)
    (persistOps (longCodecs n) (segmentPaths (longDir n))
      (longStore n))

/- Each of the two entries has a segment of its own. -/
theorem get_twoSegmentDir
    {n : Nat}
    (hLong : logSegmentMaxBytes ≤ n)
    (hn : n < 2 ^ 62) :
    (twoSegmentDir n)[logPath (segmentFileName 1 1)]? =
        some
          (segmentBytes (longCodecs n).entry
            [longEntry n]) ∧
      (twoSegmentDir n)[logPath (segmentFileName 2 2)]? =
        some
          (segmentBytes (longCodecs n).entry
            [blankEntry 2]) := by
  rcases holds_written (keyed_longStore n) (longDir n)
      (segmentPaths (longDir n)) with
    ⟨chunks, hChunks, hHolds⟩
  rw [manifestOf_longStore hLong hn] at hHolds
  rw [vals_longStore] at hChunks
  cases hHolds with
  | cons hFirst hRest =>
      cases hRest with
      | cons hSecond hNil =>
          cases hNil
          rcases hFirst.starts with ⟨e₁, r₁, rfl, _⟩
          rcases hSecond.starts with ⟨e₂, r₂, rfl, _⟩
          have hSplit :
              e₁ :: (r₁ ++ e₂ :: r₂) =
                [longEntry n, blankEntry 2] := by
            simpa using hChunks
          have hTail :
              e₁ = longEntry n ∧ r₁ = [] ∧
                e₂ = blankEntry 2 ∧ r₂ = [] := by
            cases r₁ with
            | nil => simpa using hSplit
            | cons e r => simp at hSplit
          rcases hTail with ⟨rfl, rfl, rfl, rfl⟩
          exact ⟨hFirst.content, hSecond.content⟩

theorem readLogSegments_emptied
    {n : Nat}
    (hLong : logSegmentMaxBytes ≤ n)
    (hn : n < 2 ^ 62) :
    readLogSegments (longCodecs n).entry "/data"
        ((twoSegmentDir n).insert
          (logPath (segmentFileName 1 1)) [])
        twoSegments.segments ∅ =
      .ok (insertEntries ∅ [blankEntry 2]) := by
  have hOther :
      logPath (segmentFileName 1 1) ≠
        logPath (segmentFileName 2 2) := by
    intro hEq
    have hIndex := (segmentFileName_inj (logPath_inj hEq)).1
    revert hIndex
    decide
  have hEmpty :
      readSegmentFile (longCodecs n).entry [] =
        .ok [] := by
    unfold readSegmentFile
    rw [readRecords, if_pos rfl]
  have hOne :
      ∀ e ∈ [blankEntry 2],
        FitsVec (longCodecs n).entry e := by
    intro e hMem
    rw [List.mem_singleton.mp hMem]
    exact (length_payloadOf_long hn).2.2
  have hSecond :
      readSegmentFile (longCodecs n).entry
          (segmentBytes (longCodecs n).entry
            [blankEntry 2]) =
        .ok [blankEntry 2] :=
    readSegmentFile_encode (longCodecs_lossless n).entry
      hOne
  simp only [twoSegments, readLogSegments,
    BTreeMap.get_insert, if_true, hEmpty, if_neg hOther,
    (get_twoSegmentDir hLong hn).2, hSecond]
  rfl

/-
  Emptying the first of two segments: the log is read without
  its first entry.
-/
theorem readLogSegments_first_emptied :
    ∃ (codecs : StoreCodecs) (dir : StoreDir)
        (store : PersistedRaftStore)
        (first last : SegmentMeta) (content : Bytes)
        (logs : BTreeMap UInt64 KronEntry),
      codecs.Lossless ∧ KeyedByIndex store.logs ∧
        store.Fits codecs ∧
        (manifestOf codecs store).segments =
          [first, last] ∧
        (runAll dir
            (persistOps codecs (segmentPaths dir)
              store))[logPath first.file]? =
          some content ∧
        0 < content.length ∧
        readLogSegments codecs.entry "/data"
            ((runAll dir
              (persistOps codecs (segmentPaths dir)
                store)).insert (logPath first.file)
              (content.take 0))
            (manifestOf codecs store).segments ∅ =
          .ok logs ∧
        (∃ entry,
          store.logs[first.firstIndex]? = some entry) ∧
        logs[first.firstIndex]? = none := by
  have hLong : logSegmentMaxBytes ≤ logSegmentMaxBytes :=
    Nat.le_refl _
  have hn : logSegmentMaxBytes < 2 ^ 62 := by decide
  have hFits := fits_longStore hn
  have hGet := get_twoSegmentDir hLong hn
  have hLossless := longCodecs_lossless logSegmentMaxBytes
  have hManifest := manifestOf_longStore hLong hn
  have hKeyed := keyed_longStore logSegmentMaxBytes
  have hRead := readLogSegments_emptied hLong hn
  have hFirst := get_longStore logSegmentMaxBytes
  generalize hSize : logSegmentMaxBytes = n at *
  refine
    ⟨longCodecs n, longDir n, longStore n,
      { firstIndex := 1
        lastIndex := 1
        file := segmentFileName 1 1 },
      { firstIndex := 2
        lastIndex := 2
        file := segmentFileName 2 2 },
      _, insertEntries ∅ [blankEntry 2], hLossless,
      hKeyed, hFits, ?_, hGet.1, ?_, ?_, ?_, ?_⟩
  · rw [hManifest]
    rfl
  · rw [segmentBytes, List.flatMap_singleton,
      length_encodeLogRecord]
    omega
  · rw [hManifest]
    exact hRead
  · exact ⟨longEntry n, hFirst⟩
  · rw [get_insertEntries_of_ne]
    · simp
    · intro e hMem
      rw [List.mem_singleton.mp hMem]
      decide

/- A segment that keeps one byte does not open. -/
theorem openStore_first_byte :
    ∃ e,
      openStore (longCodecs logSegmentMaxBytes) "/data"
          ((runAll (longDir logSegmentMaxBytes)
            (persistOps (longCodecs logSegmentMaxBytes)
              (segmentPaths (longDir logSegmentMaxBytes))
              (longStore logSegmentMaxBytes))).insert
            (logPath (segmentFileName 1 1))
            ((segmentBytes
              (longCodecs logSegmentMaxBytes).entry
              [longEntry logSegmentMaxBytes]).take 1)) =
        .error e := by
  have hLong : logSegmentMaxBytes ≤ logSegmentMaxBytes :=
    Nat.le_refl _
  have hn : logSegmentMaxBytes < 2 ^ 62 := by decide
  have hManifest := manifestOf_longStore hLong hn
  apply (openStore_cut_iff (longCodecs logSegmentMaxBytes)
    (longCodecs_lossless _) "/data"
    (longDir logSegmentMaxBytes) (legacy_longDir _)
    (segmentPaths (longDir logSegmentMaxBytes))
    (List.Perm.refl _) (longStore logSegmentMaxBytes)
    (keyed_longStore _) (fits_longStore hn)
    { firstIndex := 1
      lastIndex := 1
      file := segmentFileName 1 1 }
    (by rw [hManifest]; exact List.mem_cons_self) _
    (get_twoSegmentDir hLong hn).1 1).2.mpr
  refine ⟨longEntry logSegmentMaxBytes, ?_, by omega, ?_⟩
  · exact get_longStore _
  · rw [length_encodeLogRecord]
    omega

end Kron
