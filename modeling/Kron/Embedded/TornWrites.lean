import Kron.Embedded.Log

/-
  Files cut short by a crash.

  A crash leaves a prefix of the bytes that were appended.
  The prefix is some whole records and a tail: nothing, a
  record without its newline, or the beginning of one. The
  reader gives the records whose text is complete, unless the
  tail ends inside a character: then it gives an error, since
  all lines are decoded before any of them is parsed.

  Key definitions include:
    * `Kron.AppendOnlyLog.completeWithin`
    * `Kron.AppendOnlyLog.CutTail`

  Key theorems include:
    * `Kron.AppendOnlyLog.take_encodeAll_cases`
    * `Kron.AppendOnlyLog.replay_encodeAll_append`
    * `Kron.AppendOnlyLog.replay_take_iff`
-/

------------------------------------------------------------
-- Prefixes Of A File
------------------------------------------------------------

namespace Kron

namespace AppendOnlyLog

open Text

/- The entries whose text is within the first `n` bytes. -/
def completeWithin
    (codec : JsonCodec LogEntry) :
    List LogEntry → Nat → List LogEntry
| [], _ => []
| entry :: entries, n =>
    if (utf8 (codec.toText entry)).length ≤ n then
      entry ::
        completeWithin codec entries
          (n - (encodeLine codec entry).length)
    else
      []

variable {codec : JsonCodec LogEntry}

/-
  What a cut leaves after the last whole line, with the entry
  that it completes.
-/
inductive CutTail
    (codec : JsonCodec LogEntry) :
    Bytes → List LogEntry → Prop where
| nothing :
    CutTail codec [] []
| record
    (entry : LogEntry) :
    CutTail codec (utf8 (codec.toText entry)) [entry]
| torn
    (entry : LogEntry)
    (tail rest : Bytes)
    (hTail : tail ≠ [])
    (hRest : rest ≠ [])
    (hText : utf8 (codec.toText entry) = tail ++ rest) :
    CutTail codec tail []

theorem length_encodeLine
    (codec : JsonCodec LogEntry)
    (entry : LogEntry) :
    (encodeLine codec entry).length =
      (utf8 (codec.toText entry)).length + 1 := by
  rw [encodeLine_eq, List.length_append,
    List.length_singleton]

theorem completeWithin_zero
    (hWrites : ∀ e, codec.WritesLine e)
    (entries : List LogEntry) :
    completeWithin codec entries 0 = [] := by
  cases entries with
  | nil => rfl
  | cons entry entries =>
      have hNe := utf8_ne_nil (hWrites entry).ne_empty
      have hLength :
          ¬ (utf8 (codec.toText entry)).length ≤ 0 := by
        intro hZero
        apply hNe
        apply List.eq_nil_of_length_eq_zero
        omega
      simp only [completeWithin]
      rw [if_neg hLength]

/- A prefix is whole lines and a tail. -/
theorem take_encodeAll_cases
    (hWrites : ∀ e, codec.WritesLine e)
    (entries : List LogEntry)
    (n : Nat) :
    ∃ front tail last,
      (encodeAll codec entries).take n =
          encodeAll codec front ++ tail ∧
        CutTail codec tail last ∧
        completeWithin codec entries n = front ++ last := by
  induction entries generalizing n with
  | nil =>
      refine ⟨[], [], [], ?_, .nothing, rfl⟩
      simp [encodeAll]
  | cons entry entries ih =>
      have hBytes :
          encodeAll codec (entry :: entries) =
            encodeLine codec entry ++
              encodeAll codec entries := rfl
      have hLine := length_encodeLine codec entry
      by_cases hWhole :
          (encodeLine codec entry).length ≤ n
      · -- the line is whole
        rcases ih (n - (encodeLine codec entry).length) with
          ⟨front, tail, last, hTake, hTail, hComplete⟩
        refine
          ⟨entry :: front, tail, last, ?_, hTail, ?_⟩
        · rw [hBytes, List.take_append,
            List.take_of_length_le hWhole, hTake]
          simp [encodeAll]
        · simp only [completeWithin]
          rw [if_pos (by omega), hComplete,
            List.cons_append]
      · have hCut :
            (encodeAll codec (entry :: entries)).take n =
              (utf8 (codec.toText entry)).take n := by
          rw [hBytes, List.take_append_of_le_length
            (by omega), encodeLine_eq,
            List.take_append_of_le_length (by omega)]
        by_cases hText :
            (utf8 (codec.toText entry)).length ≤ n
        · -- only the newline is missing
          have hZero :
              n - (encodeLine codec entry).length = 0 := by
            omega
          refine
            ⟨[], utf8 (codec.toText entry), [entry], ?_,
              .record entry, ?_⟩
          · rw [hCut, List.take_of_length_le hText]
            simp [encodeAll]
          · simp only [completeWithin]
            rw [if_pos hText, hZero,
              completeWithin_zero hWrites]
            rfl
        · have hNone :
              completeWithin codec (entry :: entries) n =
                [] := by
            simp only [completeWithin]
            rw [if_neg hText]
          by_cases hn : n = 0
          · refine ⟨[], [], [], ?_, .nothing, hNone⟩
            simp [hn, encodeAll]
          · refine
              ⟨[], (utf8 (codec.toText entry)).take n, [],
                ?_,
                .torn entry _
                  ((utf8 (codec.toText entry)).drop n)
                  ?_ ?_ (List.take_append_drop _ _).symm,
                hNone⟩
            · rw [hCut]
              simp [encodeAll]
            · intro hNil
              have hLength := congrArg List.length hNil
              rw [List.length_take,
                List.length_nil] at hLength
              omega
            · intro hNil
              have hLength := congrArg List.length hNil
              rw [List.length_drop,
                List.length_nil] at hLength
              omega

end AppendOnlyLog

end Kron

------------------------------------------------------------
-- Reading A Prefix
------------------------------------------------------------

namespace Kron

namespace AppendOnlyLog

open Text

variable {codec : JsonCodec LogEntry}

/- The lines of whole records and a tail. -/
theorem lines_encodeAll_append
    (hWrites : ∀ e, codec.WritesLine e)
    (front : List LogEntry)
    (tail : Bytes) :
    lines (encodeAll codec front ++ tail) =
      (front.map codec.toText).map utf8 ++ lines tail := by
  induction front with
  | nil => simp [encodeAll]
  | cons entry front ih =>
      have hBytes :
          encodeAll codec (entry :: front) ++ tail =
            utf8 (codec.toText entry) ++
              newline :: (encodeAll codec front ++ tail) := by
        simp [encodeAll, encodeLine_eq]
      rw [hBytes, lines_append_newline,
        lines_closed_line (hWrites entry).noNewline, ih]
      rfl

/- The bytes of records are those of a string. -/
theorem exists_utf8_encodeAll
    (codec : JsonCodec LogEntry)
    (entries : List LogEntry) :
    ∃ s, encodeAll codec entries = utf8 s := by
  induction entries with
  | nil => exact ⟨"", rfl⟩
  | cons entry entries ih =>
      rcases ih with ⟨s, hs⟩
      refine ⟨codec.toText entry ++ "\n" ++ s, ?_⟩
      have hBytes :
          encodeAll codec (entry :: entries) =
            encodeLine codec entry ++
              encodeAll codec entries := rfl
      rw [hBytes, hs, utf8_append]
      rfl

/- The tail of a cut file has no newline. -/
theorem CutTail.newline_notMem
    (hWrites : ∀ e, codec.WritesLine e)
    {tail : Bytes}
    {last : List LogEntry}
    (hTail : CutTail codec tail last) :
    newline ∉ tail := by
  cases hTail with
  | nothing => simp
  | record entry => exact (hWrites entry).noNewline
  | torn entry _ rest _ _ hText =>
      intro hMem
      apply (hWrites entry).noNewline
      rw [hText]
      exact List.mem_append_left _ hMem

/- An empty tail completes nothing. -/
theorem CutTail.last_eq_nil
    (hWrites : ∀ e, codec.WritesLine e)
    {tail : Bytes}
    {last : List LogEntry}
    (hTail : CutTail codec tail last)
    (hNil : tail = []) :
    last = [] := by
  cases hTail with
  | nothing => rfl
  | record entry =>
      exact
        (utf8_ne_nil (hWrites entry).ne_empty hNil).elim
  | torn entry _ rest hTail _ _ => exact (hTail hNil).elim

/- Written texts are decoded before the texts after them. -/
theorem decodeTexts_map_toText_append
    (hWrites : ∀ e, codec.WritesLine e)
    (front : List LogEntry)
    (ts : List String) :
    decodeTexts codec (front.map codec.toText ++ ts) =
      (decodeTexts codec ts).map (front ++ ·) := by
  have hAll :
      ∀ t ∈ front.map codec.toText,
        ∃ entry, codec.fromText t = .ok entry := by
    intro t hMem
    rcases List.mem_map.mp hMem with ⟨entry, _, rfl⟩
    exact ⟨entry, (hWrites entry).decodes⟩
  rcases decodeTexts_append hAll ts with
    ⟨es, hDecode, _, hAppend⟩
  rw [decodeTexts_map_toText fun e _ => hWrites e]
    at hDecode
  rw [hAppend, ← Option.some.inj hDecode]

/- A tail that is a string decodes to what it completes. -/
theorem decodeTexts_cutTail
    (hWrites : ∀ e, codec.WritesLine e)
    (hEof : codec.PrefixEof)
    {s : String}
    {last : List LogEntry}
    (hTail : CutTail codec (utf8 s) last)
    (hs : s ≠ "") :
    texts [s] = [trim s] ∧
      decodeTexts codec [trim s] = some last := by
  generalize hBytes : utf8 s = tail at hTail
  cases hTail with
  | nothing => exact (utf8_ne_nil hs hBytes).elim
  | record entry =>
      have hEq := utf8_injective hBytes
      subst hEq
      have hWrite := hWrites entry
      rw [texts_cons, hWrite.trim_eq,
        if_neg hWrite.ne_empty]
      refine ⟨rfl, ?_⟩
      simp [decodeTexts, hWrite.decodes]
  | torn entry _ rest _ hRest hText =>
      rw [← hBytes] at hText
      rcases exists_append_of_utf8_append hText with
        ⟨t, hSplit, ht⟩
      have hMore : t ≠ "" := by
        intro hEmpty
        apply hRest
        rw [ht, hEmpty]
        rfl
      have hOpens : s.toList.head? = some '\x7b' := by
        have hHead := (hWrites entry).opens
        have hNe : s.toList ≠ [] := by
          simpa using hs
        rw [hSplit, String.toList_append,
          List.head?_append_of_ne_nil _ hNe] at hHead
        exact hHead
      -- what trimming leaves is cut short as well
      rcases toList_trim_prefix hOpens (by decide) with
        ⟨cs, hcs⟩
      have hTrim :
          codec.toText entry =
            trim s ++ (String.ofList cs ++ t) := by
        apply String.toList_injective
        rw [hSplit]
        simp [← hcs]
      have hLonger : String.ofList cs ++ t ≠ "" := by
        intro hEmpty
        apply hMore
        apply String.toList_eq_nil_iff.mp
        have hChars := congrArg String.toList hEmpty
        rw [String.toList_append] at hChars
        exact (List.append_eq_nil_iff.mp hChars).2
      rcases hEof entry _ _ hTrim hLonger with
        ⟨e, hError, hEnd⟩
      have hVisible : trim s ≠ "" := by
        intro hEmpty
        have hBlank := (trim_eq_empty_iff s).mp hEmpty
        have hSpace :=
          List.all_eq_true.mp hBlank '\x7b'
            (List.mem_of_head? hOpens)
        revert hSpace
        decide
      rw [texts_cons, if_neg hVisible]
      refine ⟨rfl, ?_⟩
      simp [decodeTexts, hError, hEnd]

/- Whatever the reader gives, the tail is a string. -/
theorem exists_utf8_of_replay
    (hWrites : ∀ e, codec.WritesLine e)
    {path : String}
    {front es : List LogEntry}
    {tail : Bytes}
    (hNo : newline ∉ tail)
    (hReplay :
      replay codec path (encodeAll codec front ++ tail) =
        .ok es) :
    ∃ s, tail = utf8 s := by
  unfold replay at hReplay
  rw [replayReader_eq_ok_iff] at hReplay
  rcases hReplay with ⟨strings, hRead, _⟩
  rw [readLines_eq_ok_iff,
    lines_encodeAll_append hWrites] at hRead
  by_cases hNil : tail = []
  · exact ⟨"", hNil⟩
  · rw [lines_of_notMem hNil hNo] at hRead
    rcases List.map_eq_append_iff.mp hRead.symm with
      ⟨_, last, _, _, hLast⟩
    rcases List.map_eq_singleton_iff.mp hLast with
      ⟨s, _, hs⟩
    exact ⟨s, hs.symm⟩

/-
  Whole records and a tail: the reader gives the records and
  what the tail completes, if the tail is a string.
-/
theorem replay_encodeAll_append
    (hWrites : ∀ e, codec.WritesLine e)
    (hEof : codec.PrefixEof)
    (path : String)
    (front : List LogEntry)
    {tail : Bytes}
    {last : List LogEntry}
    (hTail : CutTail codec tail last) :
    replay codec path (encodeAll codec front ++ tail) =
        .ok (front ++ last) ↔
      ∃ s, tail = utf8 s := by
  have hNo := hTail.newline_notMem hWrites
  constructor
  · intro hReplay
    exact exists_utf8_of_replay hWrites hNo hReplay
  · rintro ⟨s, rfl⟩
    unfold replay
    rw [replayReader_eq_ok_iff]
    simp only [readLines_eq_ok_iff,
      lines_encodeAll_append hWrites]
    have hFront :
        texts (front.map codec.toText) =
          front.map codec.toText :=
      texts_map_toText fun e _ => hWrites e
    by_cases hs : s = ""
    · subst hs
      refine ⟨front.map codec.toText, ?_, ?_⟩
      · simp [utf8, lines]
      · have hNil : last = [] :=
          hTail.last_eq_nil hWrites rfl
        rw [hFront,
          decodeTexts_map_toText fun e _ => hWrites e, hNil,
          List.append_nil]
    · rcases decodeTexts_cutTail hWrites hEof hTail hs with
        ⟨hTexts, hLast⟩
      refine ⟨front.map codec.toText ++ [s], ?_, ?_⟩
      · rw [lines_of_notMem (utf8_ne_nil hs) hNo]
        simp
      · rw [texts_append, hFront, hTexts,
          decodeTexts_map_toText_append hWrites, hLast]
        rfl

/-
  A prefix of the appended bytes is read as the entries whose
  text is complete in it, exactly when it does not end inside
  a character.
-/
theorem replay_take_iff
    (codec : JsonCodec LogEntry)
    (hWrites : ∀ e, codec.WritesLine e)
    (hEof : codec.PrefixEof)
    (path : String)
    (events : List (Event × DateTime))
    (n : Nat) :
    replay codec path
          ((appendAll codec [] events).take n) =
        .ok (completeWithin codec (entriesOf events) n) ↔
      ∃ s,
        fromUtf8 ((appendAll codec [] events).take n) =
          some s := by
  rw [appendAll_eq, List.nil_append]
  rcases take_encodeAll_cases hWrites (entriesOf events)
      n with
    ⟨front, tail, last, hTake, hTail, hComplete⟩
  rcases exists_utf8_encodeAll codec front with ⟨w, hw⟩
  rw [hTake, hComplete,
    replay_encodeAll_append hWrites hEof path front hTail,
    hw]
  constructor
  · rintro ⟨s, rfl⟩
    rw [← utf8_append, fromUtf8_utf8]
    exact ⟨_, rfl⟩
  · rintro ⟨s, hDecode⟩
    have hBytes := utf8_of_fromUtf8 hDecode
    rcases exists_append_of_utf8_append hBytes.symm with
      ⟨t, _, ht⟩
    exact ⟨t, ht⟩

/- The dead run of a timer with a letter of two bytes. -/
def accentTable : List (LogEntry × String) :=
  [(LogEntry.new (deadEvent "é") 0, deadText "é")]

theorem accentTable_ok :
    TableOk accentTable where
  shape := by decide +kernel
  suffixFree := by decide +kernel

noncomputable def accentCodec : JsonCodec LogEntry :=
  tableCodec accentTable

theorem accentCodec_writesLine
    (e : LogEntry) :
    accentCodec.WritesLine e :=
  tableCodec_writesLine accentTable_ok
    (by decide +kernel) e

theorem accentCodec_prefixEof :
    accentCodec.PrefixEof := by
  apply tableCodec_prefixEof accentTable_ok
  intro row hRow row' hRow' _
  rw [List.mem_singleton.mp hRow,
    List.mem_singleton.mp hRow']

/- The bytes of that record. -/
theorem appendAll_accent :
    appendAll accentCodec [] [(deadEvent "é", 0)] =
      utf8 (deadText "é" ++ "\n") := by
  have hChars :
      tableChars accentTable
          (LogEntry.new (deadEvent "é") 0) =
        (deadText "é").toList := by
    simp [tableChars, accentTable]
  rw [appendAll_eq]
  simp only [encodeAll, entriesOf, List.map_cons,
    List.map_nil, List.flatMap_singleton, List.nil_append]
  unfold encodeLine accentCodec
  simp only [tableCodec, hChars, String.ofList_toList]

/-
  A file cut between the two bytes of a letter: the reader
  gives an error instead of no entry.
-/
theorem replay_take_accent :
    (∀ e, accentCodec.WritesLine e) ∧
      accentCodec.PrefixEof ∧
      ∃ e,
        replay accentCodec "kron.aof"
            ((appendAll accentCodec []
              [(deadEvent "é", 0)]).take 75) =
          .error e := by
  refine
    ⟨accentCodec_writesLine, accentCodec_prefixEof, ?_⟩
  rw [appendAll_accent]
  have hInvalid :
      fromUtf8 ((utf8 (deadText "é" ++ "\n")).take 75) =
        none := by
    decide +kernel
  have hNo :
      newline ∉ (utf8 (deadText "é" ++ "\n")).take 75 := by
    decide +kernel
  cases hReplay :
      replay accentCodec "kron.aof"
        ((utf8 (deadText "é" ++ "\n")).take 75) with
  | error e => exact ⟨e, rfl⟩
  | ok es =>
      have hEmpty :
          replay accentCodec "kron.aof"
              (encodeAll accentCodec [] ++
                (utf8 (deadText "é" ++ "\n")).take 75) =
            .ok es := hReplay
      rcases exists_utf8_of_replay accentCodec_writesLine
          hNo hEmpty with ⟨s, hs⟩
      rw [hs, fromUtf8_utf8] at hInvalid
      cases hInvalid

/- The same file cut before the letter, read as empty. -/
theorem replay_take_before_accent :
    (∃ s,
      fromUtf8
          ((appendAll accentCodec []
            [(deadEvent "é", 0)]).take 74) =
        some s) ∧
    replay accentCodec "kron.aof"
        ((appendAll accentCodec []
          [(deadEvent "é", 0)]).take 74) =
      .ok
        (completeWithin accentCodec
          (entriesOf [(deadEvent "é", 0)]) 74) := by
  have hValid :
      ∃ s,
        fromUtf8
            ((appendAll accentCodec []
              [(deadEvent "é", 0)]).take 74) =
          some s := by
    rw [appendAll_accent]
    refine
      ⟨String.ofList ((deadText "é").toList.take 74), ?_⟩
    decide +kernel
  exact
    ⟨hValid,
      (replay_take_iff accentCodec accentCodec_writesLine
        accentCodec_prefixEof "kron.aof"
        [(deadEvent "é", 0)] 74).mpr hValid⟩

end AppendOnlyLog

end Kron
