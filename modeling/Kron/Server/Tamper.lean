import Kron.Lib.JsonText
import Kron.Server.Audit

/-
  Tamper evidence of the audit log.

  The canonical text of a record determines all of its fields
  but the hash, and the hash of the record before it is one
  of them. If no two records have the same hash by accident,
  the last hash of an accepted file therefore determines the
  last record, and so on down to the first one.

  Key definitions include:
    * `Kron.Audit.canonicalText`
    * `Kron.Audit.sha256Hash`
    * `Kron.Audit.completeRecords`
    * `Kron.Audit.NoCollision`

  Key theorems include:
    * `Kron.Audit.canonicalText_inj`
    * `Kron.Audit.linked_eq_of_hash`
    * `Kron.Audit.records_eq_of_last_hash`
-/

------------------------------------------------------------
-- The Canonical Text
------------------------------------------------------------

namespace Kron

namespace Audit

open Text
open Digits
open JsonText

/-
  The JSON that `compute_hash` hashes, with its keys in
  alphabetical order. `rfc3339` stands for the formatting of
  a time.
-/
def canonicalText
    (rfc3339 : DateTime → String)
    (content : AuditContent) : String :=
  "\x7b\"action\":" ++ quote content.action ++
    ",\"actor\":" ++ quote content.actor ++
    ",\"node_id\":" ++ quote content.nodeId ++
    ",\"outcome\":" ++ quote content.outcome ++
    ",\"prev_hash\":" ++ quote content.prevHash ++
    ",\"reason\":" ++ quoteOption content.reason ++
    ",\"role\":" ++ quote content.role ++
    ",\"seq\":" ++ toString content.seq ++
    ",\"status\":" ++ toString content.status ++
    ",\"tenant_id\":" ++ quoteOption content.tenantId ++
    ",\"ts\":" ++ quote (rfc3339 content.ts) ++ "\x7d"

/- The bytes of a SHA-256. -/
abbrev Sha256Digest :=
  { bytes : Bytes // bytes.length = 32 }

/- Bytes in hexadecimal, two digits each. -/
def hexBytes
    (bytes : Bytes) : String :=
  String.ofList (bytes.flatMap fun b => hex 2 b.toNat)

/- `compute_hash`, over the fields that it covers. -/
def sha256Hash
    (sha256 : Bytes → Sha256Digest)
    (rfc3339 : DateTime → String)
    (content : AuditContent) : String :=
  hexBytes
    (sha256 (utf8 (canonicalText rfc3339 content))).1

variable {sha256 : Bytes → Sha256Digest}
variable {rfc3339 : DateTime → String}

/- The text determines every field. -/
theorem canonicalText_inj
    {content content' : AuditContent}
    (hTime :
      rfc3339 content.ts = rfc3339 content'.ts →
        content.ts = content'.ts)
    (hEq :
      canonicalText rfc3339 content =
        canonicalText rfc3339 content') :
    content = content' := by
  have hKey :
      ∀ {key x y : String}, key ++ x = key ++ y → x = y := by
    intro key x y hSame
    exact String.append_right_inj key |>.mp hSame
  have hNumber :
      ∀ {n m : Nat} {key x y : String},
        Nat.repr n ++ ("," ++ key ++ x) =
            Nat.repr m ++ ("," ++ key ++ y) →
          n = m ∧ x = y := by
    intro n m key x y hSame
    rw [String.append_assoc, String.append_assoc] at hSame
    rcases repr_append_inj hSame with ⟨hn, hx⟩
    exact ⟨hn, hKey hx⟩
  have hStatus : ",\"status\":" = "," ++ "\"status\":" := by
    decide +kernel
  have hTenant :
      ",\"tenant_id\":" = "," ++ "\"tenant_id\":" := by
    decide +kernel
  have hSeq :
      ∀ n : UInt64, toString n = Nat.repr n.toNat :=
    fun _ => rfl
  have hCode :
      ∀ n : UInt16, toString n = Nat.repr n.toNat :=
    fun _ => rfl
  unfold canonicalText at hEq
  simp only [String.append_assoc] at hEq
  rcases quote_append_inj (hKey hEq) with ⟨hAction, h₁⟩
  rcases quote_append_inj (hKey h₁) with ⟨hActor, h₂⟩
  rcases quote_append_inj (hKey h₂) with ⟨hNode, h₃⟩
  rcases quote_append_inj (hKey h₃) with ⟨hOutcome, h₄⟩
  rcases quote_append_inj (hKey h₄) with ⟨hPrev, h₅⟩
  rcases quoteOption_append_inj (hKey h₅) with
    ⟨hReason, h₆⟩
  rcases quote_append_inj (hKey h₆) with ⟨hRole, h₇⟩
  have h₈ := hKey h₇
  rw [hSeq, hSeq, hStatus] at h₈
  rcases hNumber h₈ with ⟨hSeqs, h₉⟩
  rw [hCode, hCode, hTenant] at h₉
  rcases hNumber h₉ with ⟨hCodes, h₁₀⟩
  rcases quoteOption_append_inj h₁₀ with ⟨hTenants, h₁₁⟩
  rcases quote_append_inj (hKey h₁₁) with ⟨hTimes, _⟩
  cases content
  cases content'
  simp only at *
  simp [hAction, hActor, hNode, hOutcome, hPrev, hReason,
    hRole, UInt64.toNat_inj.mp hSeqs,
    UInt16.toNat_inj.mp hCodes, hTenants, hTime hTimes]

/- The bytes can be read off their hexadecimal text. -/
theorem hexBytes_inj
    {bytes bytes' : Bytes}
    (hEq : hexBytes bytes = hexBytes bytes') :
    bytes = bytes' := by
  have hChars := congrArg String.toList hEq
  unfold hexBytes at hChars
  rw [String.toList_ofList, String.toList_ofList] at hChars
  clear hEq
  induction bytes generalizing bytes' with
  | nil =>
      cases bytes' with
      | nil => rfl
      | cons b' bytes' =>
          have hLength := congrArg List.length hChars
          simp at hLength
          omega
  | cons b bytes ih =>
      cases bytes' with
      | nil =>
          have hLength := congrArg List.length hChars
          simp at hLength
      | cons b' bytes' =>
          rw [List.flatMap_cons, List.flatMap_cons]
            at hChars
          rcases List.append_inj hChars (by simp) with
            ⟨hHead, hTail⟩
          have hByte : b.toNat = b'.toNat :=
            hex_injOn b.toNat_lt b'.toNat_lt hHead
          rw [UInt8.toNat_inj.mp hByte, ih hTail]

theorem hexBytes_ne_empty
    (digest : Sha256Digest) :
    hexBytes digest.1 ≠ "" := by
  intro hEmpty
  have hNil : digest.1 = [] := by
    apply hexBytes_inj
    rw [hEmpty]
    rfl
  have hLength := digest.2
  rw [hNil, List.length_nil] at hLength
  omega

end Audit

end Kron

------------------------------------------------------------
-- The Last Hash
------------------------------------------------------------

namespace Kron

namespace Audit

open Text
open JsonCodec

/- The records of a file that are not cut short. -/
def completeRecords
    (codec : JsonCodec AuditRecord)
    (bytes : Bytes) : Option (List AuditRecord) :=
  match readStrings bytes with
  | .error _ => none
  | .ok strings => codec.decodeAll (textLines strings)

/-
  Among some records, SHA-256 tells different canonical texts
  apart and the formatting tells different times apart.
-/
structure NoCollision
    (sha256 : Bytes → Sha256Digest)
    (rfc3339 : DateTime → String)
    (records : List AuditRecord) : Prop where
  digests :
    ∀ r ∈ records, ∀ r' ∈ records,
      sha256
            (utf8
              (canonicalText rfc3339 r.toAuditContent)) =
          sha256
            (utf8
              (canonicalText rfc3339 r'.toAuditContent)) →
        canonicalText rfc3339 r.toAuditContent =
          canonicalText rfc3339 r'.toAuditContent
  times :
    ∀ r ∈ records, ∀ r' ∈ records,
      rfc3339 r.ts = rfc3339 r'.ts → r.ts = r'.ts

variable {sha256 : Bytes → Sha256Digest}
variable {rfc3339 : DateTime → String}
variable {codec : JsonCodec AuditRecord}

/- The last record of a chain. -/
theorem linked_concat
    {records : List AuditRecord}
    {record : AuditRecord}
    (hLinked :
      Linked (sha256Hash sha256 rfc3339) "" 1
        (records ++ [record])) :
    Linked (sha256Hash sha256 rfc3339) "" 1 records ∧
      record.prevHash =
        (stateAfter initialState records).hash ∧
      record.hash =
        sha256Hash sha256 rfc3339 record.toAuditContent := by
  rcases (linked_append initialState records
      [record]).mp hLinked with ⟨hFront, hLast⟩
  exact ⟨hFront, hLast.2.1, hLast.2.2.1⟩

/- Records with the same hash are the same. -/
theorem eq_of_hash_eq
    {records : List AuditRecord}
    (hNo : NoCollision sha256 rfc3339 records)
    {r r' : AuditRecord}
    (hMem : r ∈ records)
    (hMem' : r' ∈ records)
    (hHash :
      r.hash = sha256Hash sha256 rfc3339 r.toAuditContent)
    (hHash' :
      r'.hash =
        sha256Hash sha256 rfc3339 r'.toAuditContent)
    (hEq : r.hash = r'.hash) :
    r = r' := by
  have hDigest :
      sha256
          (utf8 (canonicalText rfc3339 r.toAuditContent)) =
        sha256
          (utf8
            (canonicalText rfc3339 r'.toAuditContent)) := by
    apply Subtype.ext
    apply hexBytes_inj
    exact hHash.symm.trans (hEq.trans hHash')
  have hContent : r.toAuditContent = r'.toAuditContent :=
    canonicalText_inj (hNo.times r hMem r' hMem')
      (hNo.digests r hMem r' hMem' hDigest)
  cases r
  cases r'
  simp only at hContent hEq
  rw [hContent, hEq]

/- The hash before the first record is the empty text. -/
theorem stateAfter_hash_ne
    {records : List AuditRecord}
    (hLinked :
      Linked (sha256Hash sha256 rfc3339) "" 1 records)
    (hNe : records ≠ []) :
    (stateAfter initialState records).hash ≠ "" := by
  rcases List.eq_nil_or_concat' records with
    hNil | ⟨front, last, rfl⟩
  · exact (hNe hNil).elim
  · have hHash := (linked_concat hLinked).2.2
    have hState :
        (stateAfter initialState (front ++ [last])).hash =
          last.hash := by
      simp [stateAfter]
    rw [hState, hHash]
    exact hexBytes_ne_empty _

/-
  Two chains that end with the same hash are the same: the
  last records are equal, so that the chains before them end
  with the same hash as well.
-/
theorem linked_eq_of_hash
    {all : List AuditRecord}
    (hNo : NoCollision sha256 rfc3339 all)
    {records records' : List AuditRecord}
    (hSub : ∀ r ∈ records, r ∈ all)
    (hSub' : ∀ r ∈ records', r ∈ all)
    (hLinked :
      Linked (sha256Hash sha256 rfc3339) "" 1 records)
    (hLinked' :
      Linked (sha256Hash sha256 rfc3339) "" 1 records')
    (hEq :
      (stateAfter initialState records).hash =
        (stateAfter initialState records').hash) :
    records = records' := by
  induction records using List.reverseRecOn
      generalizing records' with
  | nil =>
      by_contra hNe
      have hLonger := stateAfter_hash_ne hLinked'
        (fun hNil => hNe hNil.symm)
      exact hLonger hEq.symm
  | append_singleton front last ih =>
      rcases List.eq_nil_or_concat' records' with
        rfl | ⟨front', last', rfl⟩
      · have hLonger :=
          stateAfter_hash_ne hLinked (by simp)
        exact (hLonger hEq).elim
      · rcases linked_concat hLinked with
          ⟨hFront, hPrev, hHash⟩
        rcases linked_concat hLinked' with
          ⟨hFront', hPrev', hHash'⟩
        have hLast : last = last' := by
          apply eq_of_hash_eq hNo _ _ hHash hHash'
          · simpa [stateAfter] using hEq
          · exact hSub last (by simp)
          · exact hSub' last' (by simp)
        subst hLast
        have hSame : front = front' := by
          apply ih _ _ hFront hFront'
          · rw [← hPrev, hPrev']
          · intro r hMem
            exact hSub r (List.mem_append_left _ hMem)
          · intro r hMem
            exact hSub' r (List.mem_append_left _ hMem)
        rw [hSame]

/- The records of an accepted file are a chain. -/
theorem linked_of_verify
    {digest : AuditContent → String}
    {bytes : Bytes}
    {n : UInt64}
    (hVerify : verify digest codec (some bytes) = .ok n) :
    ∃ records,
      completeRecords codec bytes = some records ∧
        Linked digest "" 1 records := by
  rcases (verify_eq_ok_iff bytes n).mp hVerify with
    ⟨strings, records, hRead, hDecode, hLinked, _⟩
  refine ⟨records, ?_, hLinked⟩
  unfold completeRecords
  rw [hRead]
  exact hDecode

/-
  Two accepted files whose last records have the same hash
  have the same records: whoever changes a record changes the
  last hash or is found out.
-/
theorem records_eq_of_last_hash
    (sha256 : Bytes → Sha256Digest)
    (rfc3339 : DateTime → String)
    (codec : JsonCodec AuditRecord)
    (bytes bytes' : Bytes)
    (n n' : UInt64)
    (hVerify :
      verify (sha256Hash sha256 rfc3339) codec
        (some bytes) = .ok n)
    (hVerify' :
      verify (sha256Hash sha256 rfc3339) codec
        (some bytes') = .ok n')
    (records records' : List AuditRecord)
    (hRecords : completeRecords codec bytes = some records)
    (hRecords' :
      completeRecords codec bytes' = some records')
    (hNo :
      NoCollision sha256 rfc3339 (records ++ records'))
    (last last' : AuditRecord)
    (hLast : records.getLast? = some last)
    (hLast' : records'.getLast? = some last')
    (hHash : last.hash = last'.hash) :
    records = records' := by
  rcases linked_of_verify hVerify with
    ⟨found, hFound, hLinked⟩
  rcases linked_of_verify hVerify' with
    ⟨found', hFound', hLinked'⟩
  rw [hRecords] at hFound
  rw [hRecords'] at hFound'
  cases hFound
  cases hFound'
  have hState :
      ∀ {records : List AuditRecord} {last : AuditRecord},
        records.getLast? = some last →
          (stateAfter initialState records).hash =
            last.hash := by
    intro records last hGet
    rcases List.getLast?_eq_some_iff.mp hGet with
      ⟨front, rfl⟩
    simp [stateAfter]
  apply linked_eq_of_hash hNo
    (fun r hMem => List.mem_append_left _ hMem)
    (fun r hMem => List.mem_append_right _ hMem)
    hLinked hLinked'
  rw [hState hLast, hState hLast', hHash]

/- The real formatting of the time of the two calls. -/
def workerTime
    (_ : DateTime) : String :=
  "2026-06-10T10:00:00+00:00"

def pollCanonical : String :=
  "\x7b\"action\":\"worker.poll\"," ++
    "\"actor\":\"worker\",\"node_id\":\"n1\"," ++
    "\"outcome\":\"ok\",\"prev_hash\":\"\"," ++
    "\"reason\":null,\"role\":\"worker\",\"seq\":1," ++
    "\"status\":200,\"tenant_id\":\"tenant-a\"," ++
    "\"ts\":\"2026-06-10T10:00:00+00:00\"\x7d"

def pollDigest : Sha256Digest :=
  ⟨[24, 121, 137, 33, 80, 187, 83, 127, 94, 115, 196, 36,
      152, 59, 239, 249, 219, 204, 233, 93, 23, 101, 194,
      133, 0, 177, 206, 71, 172, 0, 243, 150], rfl⟩

def succeedDigest : Sha256Digest :=
  ⟨[22, 180, 26, 42, 230, 65, 226, 150, 97, 197, 9, 175,
      158, 244, 127, 168, 203, 19, 218, 184, 42, 195, 99,
      183, 254, 21, 64, 156, 205, 76, 155, 87], rfl⟩

/- SHA-256 on the canonical texts of the two calls. -/
def workerSha256
    (bytes : Bytes) : Sha256Digest :=
  if bytes = utf8 pollCanonical then
    pollDigest
  else
    succeedDigest

theorem canonicalText_pollRecord :
    canonicalText workerTime pollRecord.toAuditContent =
      pollCanonical := by
  decide +kernel

theorem canonicalText_succeedRecord_ne :
    utf8
        (canonicalText workerTime
          succeedRecord.toAuditContent) ≠
      utf8 pollCanonical := by
  decide +kernel

theorem sha256Hash_worker :
    sha256Hash workerSha256 workerTime
          pollRecord.toAuditContent = pollRecord.hash ∧
      sha256Hash workerSha256 workerTime
          succeedRecord.toAuditContent =
        succeedRecord.hash := by
  constructor
  · unfold sha256Hash workerSha256
    rw [canonicalText_pollRecord, if_pos rfl]
    decide +kernel
  · unfold sha256Hash workerSha256
    rw [if_neg canonicalText_succeedRecord_ne]
    decide +kernel

theorem noCollision_worker :
    NoCollision workerSha256 workerTime
      ([pollRecord, succeedRecord] ++
        [pollRecord, succeedRecord]) := by
  have hPoll :
      workerSha256
          (utf8
            (canonicalText workerTime
              pollRecord.toAuditContent)) =
        pollDigest := by
    unfold workerSha256
    rw [canonicalText_pollRecord, if_pos rfl]
  have hSucceed :
      workerSha256
          (utf8
            (canonicalText workerTime
              succeedRecord.toAuditContent)) =
        succeedDigest := by
    unfold workerSha256
    rw [if_neg canonicalText_succeedRecord_ne]
  have hNe : pollDigest ≠ succeedDigest := by decide
  have hMem :
      ∀ r ∈ [pollRecord, succeedRecord] ++
          [pollRecord, succeedRecord],
        r = pollRecord ∨ r = succeedRecord := by
    intro r hIn
    simp only [List.mem_append, List.mem_cons,
      List.not_mem_nil, or_false, or_self] at hIn
    exact hIn
  constructor
  · intro r hIn r' hIn' hEq
    rcases hMem r hIn with rfl | rfl
    · rcases hMem r' hIn' with rfl | rfl
      · rfl
      · rw [hPoll, hSucceed] at hEq
        exact (hNe hEq).elim
    · rcases hMem r' hIn' with rfl | rfl
      · rw [hPoll, hSucceed] at hEq
        exact (hNe hEq.symm).elim
      · rfl
  · intro r hIn r' hIn' _
    rcases hMem r hIn with rfl | rfl
    · rcases hMem r' hIn' with rfl | rfl <;> rfl
    · rcases hMem r' hIn' with rfl | rfl <;> rfl

/- A file with the two records after blank lines. -/
theorem verify_after_blank
    {bytes : Bytes}
    {closed : List String}
    (hSplit : Split bytes closed "")
    (hBlank : textLines closed = []) :
    verify (sha256Hash workerSha256 workerTime) workerCodec
          (some
            (bytes ++
              [pollRecord, succeedRecord].flatMap
                (encodeRecord workerCodec))) =
        .ok 2 ∧
      completeRecords workerCodec
          (bytes ++
            [pollRecord, succeedRecord].flatMap
              (encodeRecord workerCodec)) =
        some [pollRecord, succeedRecord] := by
  rcases textLines_of_split pollRecord [succeedRecord]
      workerCodec_writesLine hSplit with
    ⟨strings, hRead, hTexts⟩
  have hLines :
      textLines strings =
        [pollRecord, succeedRecord].map
          workerCodec.toText := by
    rw [hTexts, hBlank, String.empty_append]
    rfl
  have hDecode :
      workerCodec.decodeAll (textLines strings) =
        some [pollRecord, succeedRecord] := by
    rw [hLines]
    exact
      decodeAll_of_parses
        (parses_toText workerCodec_writesLine _)
  constructor
  · rw [verify_eq_ok_iff]
    refine
      ⟨strings, [pollRecord, succeedRecord], hRead,
        hDecode, ?_, rfl⟩
    exact
      ⟨rfl, rfl, sha256Hash_worker.1.symm, rfl, rfl,
        sha256Hash_worker.2.symm, trivial⟩
  · unfold completeRecords
    rw [hRead]
    exact hDecode

/- The two records with and without a blank line before. -/
theorem records_eq_of_succeedHash :
    ∃ records records',
      completeRecords workerCodec
            ([] ++
              [pollRecord, succeedRecord].flatMap
                (encodeRecord workerCodec)) =
          some records ∧
        completeRecords workerCodec
            ([newline] ++
              [pollRecord, succeedRecord].flatMap
                (encodeRecord workerCodec)) =
          some records' ∧
        records = records' := by
  have hEmpty : Split [] [] "" :=
    ⟨by decide +kernel, by decide +kernel⟩
  have hLine : Split [newline] [""] "" :=
    ⟨by decide +kernel, by decide +kernel⟩
  have hFirst := verify_after_blank hEmpty rfl
  have hSecond :=
    verify_after_blank hLine (by decide +kernel)
  exact
    ⟨_, _, hFirst.2, hSecond.2,
      records_eq_of_last_hash workerSha256 workerTime
        workerCodec _ _ 2 2 hFirst.1 hSecond.1 _ _ hFirst.2
        hSecond.2 noCollision_worker succeedRecord
        succeedRecord rfl rfl rfl⟩

end Audit

end Kron
