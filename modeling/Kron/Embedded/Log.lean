import Kron.Embedded.State

/-
  The append-only log `kron.aof`: one JSON object per line,
  appended and never rewritten, and a reader that forgives a
  truncated last record.

  `decodeTexts` says what the reader returns in terms of the
  nonblank lines alone; `replayReader_eq_ok_iff` connects it
  with the loop of the source.

  Key definitions include:
    * `Kron.AppendOnlyLog.append`
    * `Kron.AppendOnlyLog.replayReader`
    * `Kron.AppendOnlyLog.replay`
    * `Kron.AppendOnlyLog.replayFrom`
    * `Kron.AppendOnlyLog.decodeTexts`
    * `Kron.AppendOnlyLog.EndsClean`

  Key theorems include:
    * `Kron.AppendOnlyLog.replayReader_eq_ok_iff`
    * `Kron.AppendOnlyLog.replay_encodeAll`
    * `Kron.AppendOnlyLog.replay_append_of_endsClean`
    * `Kron.AppendOnlyLog.prefix_of_replay_append_of_not_endsClean`
    * `Kron.AppendOnlyLog.suffix_of_replayFrom_encodeAll`
    * `Kron.AppendOnlyLog.replay_append_iff_endsClean`
-/

------------------------------------------------------------
-- Writing
------------------------------------------------------------

namespace Kron

namespace AppendOnlyLog

open Text

variable (codec : JsonCodec LogEntry)

/- A missing file is created empty. -/
def openFile
    (file : Option Bytes) : Bytes :=
  file.getD []

/- The bytes of one record with its newline. -/
def encodeLine
    (entry : LogEntry) : Bytes :=
  utf8 (codec.toText entry ++ "\n")

/- Append one event, stamped with the clock reading. -/
def append
    (file : Bytes)
    (event : Event)
    (now : DateTime) : Bytes :=
  file ++ encodeLine codec (LogEntry.new event now)

/- Append events one after the other. -/
def appendAll
    (file : Bytes)
    (events : List (Event × DateTime)) : Bytes :=
  events.foldl
    (fun file event => append codec file event.1 event.2)
    file

/- The entries that `appendAll` writes. -/
def entriesOf
    (events : List (Event × DateTime)) : List LogEntry :=
  events.map fun event => LogEntry.new event.1 event.2

/- The bytes of several records. -/
def encodeAll
    (entries : List LogEntry) : Bytes :=
  entries.flatMap (encodeLine codec)

end AppendOnlyLog

end Kron

------------------------------------------------------------
-- Reading
------------------------------------------------------------

namespace Kron

namespace AppendOnlyLog

open Text

variable (codec : JsonCodec LogEntry)

/- The index of the last element that satisfies `p`. -/
def rposition
    {α : Type}
    (p : α → Bool) : List α → Option Nat
| [] => none
| x :: xs =>
    match rposition p xs with
    | some i => some (i + 1)
    | none => if p x then some 0 else none

/- A line that is not blank. -/
def hasText
    (line : String) : Bool :=
  trim line ≠ ""

/- Read one line; it must be UTF-8. -/
def readLine
    (line : Bytes) : Except KronError String :=
  match fromUtf8 line with
  | some s => .ok s
  | none =>
      .error
        (.logIo "stream did not contain valid UTF-8")

/-
  The lines of the file. A carriage return before a newline
  is left to the trimming that follows.
-/
def readLines
    (file : Bytes) : Except KronError (List String) :=
  (lines file).mapM readLine

/- The loop of `replay_reader` from line number `lineNo`. -/
def replayLoop
    (path : String)
    (lastNonEmpty : Option Nat) :
    Nat → List String → List LogEntry →
      Except KronError (List LogEntry)
| _, [], entries => .ok entries
| lineNo, line :: rest, entries =>
    if trim line = "" then
      replayLoop path lastNonEmpty (lineNo + 1) rest entries
    else
      match codec.fromText (trim line) with
      | .ok entry =>
          replayLoop path lastNonEmpty (lineNo + 1) rest
            (entries ++ [entry])
      | .error e =>
          -- only the last record may be cut short
          if some lineNo = lastNonEmpty ∧
              e.isEof = true then
            .ok entries
          else
            .error (.corruptLog path (lineNo + 1) e)

/- Read every entry of the given bytes. -/
def replayReader
    (path : String)
    (file : Bytes) :
    Except KronError (List LogEntry) :=
  match readLines file with
  | .error e => .error e
  | .ok strings =>
      replayLoop codec path
        (rposition hasText strings) 0 strings []

/- Read the whole file. -/
def replay
    (path : String)
    (file : Bytes) :
    Except KronError (List LogEntry) :=
  replayReader codec path file

/- Read the file from a byte offset. -/
def replayFrom
    (path : String)
    (file : Bytes)
    (offset : Nat) :
    Except KronError (List LogEntry) :=
  replayReader codec path (file.drop offset)

end AppendOnlyLog

end Kron

------------------------------------------------------------
-- What The Reader Accepts
------------------------------------------------------------

namespace Kron

namespace AppendOnlyLog

open Text

variable (codec : JsonCodec LogEntry)

/- The trimmed nonblank lines. -/
def texts
    (strings : List String) : List String :=
  (strings.map trim).filter (fun t => t ≠ "")

/- Every text must parse; the last may end too early. -/
def decodeTexts : List String → Option (List LogEntry)
| [] => some []
| t :: ts =>
    match codec.fromText t with
    | .ok entry => (decodeTexts ts).map (entry :: ·)
    | .error e =>
        if ts = [] ∧ e.isEof = true then some [] else none

theorem texts_cons
    (line : String)
    (rest : List String) :
    texts (line :: rest) =
      if trim line = "" then
        texts rest
      else
        trim line :: texts rest := by
  by_cases hLine : trim line = ""
  · simp [texts, hLine]
  · simp [texts, hLine]

theorem rposition_cons
    {α : Type}
    (p : α → Bool)
    (x : α)
    (xs : List α) :
    rposition p (x :: xs) =
      match rposition p xs with
      | some i => some (i + 1)
      | none => if p x then some 0 else none := rfl

theorem rposition_eq_none_iff
    {α : Type}
    (p : α → Bool)
    (xs : List α) :
    rposition p xs = none ↔ ∀ x ∈ xs, p x = false := by
  induction xs with
  | nil => simp [rposition]
  | cons x xs ih =>
      rw [rposition_cons]
      cases hRest : rposition p xs with
      | some i =>
          rw [hRest] at ih
          simp only [reduceCtorEq, false_iff] at ih ⊢
          intro hAll
          exact ih fun y hy =>
            hAll y (List.mem_cons_of_mem _ hy)
      | none =>
          have hNone := ih.mp hRest
          by_cases hx : p x = true
          · simp [hx]
          · simpa [hx] using hNone

theorem texts_eq_nil_iff
    (strings : List String) :
    texts strings = [] ↔
      rposition hasText strings = none := by
  rw [rposition_eq_none_iff]
  simp [texts, hasText]

/- Blank lines are skipped. -/
theorem replayLoop_of_texts_nil
    (path : String)
    (last : Option Nat)
    (lineNo : Nat)
    (strings : List String)
    (entries : List LogEntry)
    (hBlank : texts strings = []) :
    replayLoop codec path last lineNo strings entries =
      .ok entries := by
  induction strings generalizing lineNo with
  | nil => rfl
  | cons line rest ih =>
      by_cases hLine : trim line = ""
      · have hRest : texts rest = [] := by
          simpa [texts, hLine] using hBlank
        simp only [replayLoop, hLine, if_true]
        exact ih (lineNo + 1) hRest
      · simp [texts, hLine] at hBlank

/-
  The last nonblank line, numbered from `lineNo`. Past the
  first line it is the last nonblank line of the rest.
-/
def lastFrom
    (lineNo : Nat)
    (strings : List String) : Option Nat :=
  (rposition hasText strings).map (· + lineNo)

theorem lastFrom_cons
    (lineNo : Nat)
    (line : String)
    (rest : List String)
    (hRest : texts rest ≠ [] ∨ hasText line = false) :
    lastFrom lineNo (line :: rest) =
      lastFrom (lineNo + 1) rest := by
  unfold lastFrom
  rw [rposition_cons]
  cases hPos : rposition hasText rest with
  | some i =>
      simp only [Option.map_some, Option.some.injEq]
      omega
  | none =>
      rcases hRest with hTexts | hLine
      · exact
          (hTexts ((texts_eq_nil_iff rest).mpr hPos)).elim
      · simp [hLine]

theorem some_eq_lastFrom_iff
    (lineNo : Nat)
    (line : String)
    (rest : List String)
    (hLine : hasText line = true) :
    some lineNo = lastFrom lineNo (line :: rest) ↔
      texts rest = [] := by
  rw [texts_eq_nil_iff]
  unfold lastFrom
  rw [rposition_cons]
  cases rposition hasText rest with
  | none => simp [hLine]
  | some i => simp

/- The loop returns what the nonblank lines decode to. -/
theorem replayLoop_eq_ok_iff
    (path : String)
    (lineNo : Nat)
    (strings : List String)
    (entries es : List LogEntry) :
    replayLoop codec path (lastFrom lineNo strings) lineNo
        strings entries = .ok es ↔
      ∃ new,
        decodeTexts codec (texts strings) = some new ∧
          es = entries ++ new := by
  induction strings generalizing lineNo entries with
  | nil =>
      simp [replayLoop, texts, decodeTexts, eq_comm]
  | cons line rest ih =>
      by_cases hLine : trim line = ""
      · rw [texts_cons, if_pos hLine,
          lastFrom_cons lineNo line rest
            (Or.inr (by simp [hasText, hLine]))]
        simp only [replayLoop, hLine, if_true]
        exact ih (lineNo + 1) entries
      · rw [texts_cons, if_neg hLine]
        simp only [replayLoop, hLine, if_false, decodeTexts]
        cases hParse : codec.fromText (trim line) with
        | ok entry =>
            simp only
            by_cases hRest : texts rest = []
            · rw [replayLoop_of_texts_nil codec path _ _
                rest _ hRest, hRest]
              simp [decodeTexts, eq_comm]
            · rw [lastFrom_cons lineNo line rest
                (Or.inl hRest),
                ih (lineNo + 1) (entries ++ [entry])]
              simp
        | error e =>
            have hLast :=
              some_eq_lastFrom_iff lineNo line rest
                (by simp [hasText, hLine])
            simp only [hLast]
            by_cases hEnd :
                texts rest = [] ∧ e.isEof = true
            · simp [hEnd, eq_comm]
            · simp [hEnd]

/- The reader returns what the nonblank lines decode to. -/
theorem replayReader_eq_ok_iff
    (path : String)
    (file : Bytes)
    (es : List LogEntry) :
    replayReader codec path file = .ok es ↔
      ∃ strings,
        readLines file = .ok strings ∧
          decodeTexts codec (texts strings) = some es := by
  unfold replayReader
  cases hRead : readLines file with
  | error e => simp
  | ok strings =>
      have hLoop :=
        replayLoop_eq_ok_iff codec path 0 strings [] es
      have hLast :
          lastFrom 0 strings = rposition hasText strings := by
        simp [lastFrom]
      rw [hLast] at hLoop
      simpa using hLoop

end AppendOnlyLog

end Kron

------------------------------------------------------------
-- Decoding Lists Of Texts
------------------------------------------------------------

namespace Kron

namespace AppendOnlyLog

open Text

variable {codec : JsonCodec LogEntry}

/- Texts that all parse are followed by any texts. -/
theorem decodeTexts_append
    {xs : List String}
    (hAll : ∀ t ∈ xs, ∃ entry, codec.fromText t = .ok entry)
    (ys : List String) :
    ∃ es,
      decodeTexts codec xs = some es ∧
        es.length = xs.length ∧
          decodeTexts codec (xs ++ ys) =
            (decodeTexts codec ys).map (es ++ ·) := by
  induction xs with
  | nil => exact ⟨[], rfl, rfl, by simp⟩
  | cons t ts ih =>
      rcases hAll t List.mem_cons_self with ⟨entry, hEntry⟩
      have hRest :
          ∀ u ∈ ts, ∃ entry, codec.fromText u = .ok entry := by
        intro u hu
        exact hAll u (List.mem_cons_of_mem _ hu)
      rcases ih hRest with ⟨es, hDecode, hLen, hAppend⟩
      refine ⟨entry :: es, ?_, by simp [hLen], ?_⟩
      · simp [decodeTexts, hEntry, hDecode]
      · simp only [List.cons_append, decodeTexts, hEntry,
          hAppend, Option.map_map]
        rfl

/- Texts before another text must all parse. -/
theorem forall_ok_of_decodeTexts
    {xs ys : List String}
    {t : String}
    {es : List LogEntry}
    (hDecode : decodeTexts codec (xs ++ t :: ys) = some es) :
    ∀ u ∈ xs, ∃ entry, codec.fromText u = .ok entry := by
  induction xs generalizing es with
  | nil => simp
  | cons x xs ih =>
      simp only [List.cons_append, decodeTexts] at hDecode
      cases hParse : codec.fromText x with
      | error e =>
          simp [hParse] at hDecode
      | ok entry =>
          simp only [hParse] at hDecode
          rcases Option.map_eq_some_iff.mp hDecode with
            ⟨rest, hRest, _⟩
          intro u hu
          rcases List.mem_cons.mp hu with hEq | hMem
          · exact ⟨entry, hEq ▸ hParse⟩
          · exact ih hRest u hMem

/- A text that does not parse is the last one, and is lost. -/
theorem decodeTexts_of_error
    {xs ys : List String}
    {t : String}
    {e : JsonError}
    {es : List LogEntry}
    (hError : codec.fromText t = .error e)
    (hDecode : decodeTexts codec (xs ++ t :: ys) = some es) :
    ys = [] ∧ es.length = xs.length := by
  rcases decodeTexts_append
      (forall_ok_of_decodeTexts hDecode) (t :: ys) with
    ⟨front, _, hLen, hAppend⟩
  rw [hAppend] at hDecode
  simp only [decodeTexts, hError] at hDecode
  by_cases hEnd : ys = [] ∧ e.isEof = true
  · rw [if_pos hEnd] at hDecode
    have hes : front = es := by simpa using hDecode
    exact ⟨hEnd.1, by rw [← hes, hLen]⟩
  · rw [if_neg hEnd] at hDecode
    cases hDecode

/- Written texts decode to what was written. -/
theorem decodeTexts_map_toText
    {entries : List LogEntry}
    (hWrites : ∀ e ∈ entries, codec.WritesLine e) :
    decodeTexts codec (entries.map codec.toText) =
      some entries := by
  induction entries with
  | nil => rfl
  | cons e es ih =>
      have hRest : ∀ e ∈ es, codec.WritesLine e := by
        intro e' he'
        exact hWrites e' (List.mem_cons_of_mem _ he')
      have hHead := hWrites e List.mem_cons_self
      simp [decodeTexts, hHead.decodes, ih hRest]

/- Written texts are nonblank and need no trimming. -/
theorem texts_map_toText
    {entries : List LogEntry}
    (hWrites : ∀ e ∈ entries, codec.WritesLine e) :
    texts (entries.map codec.toText) =
      entries.map codec.toText := by
  induction entries with
  | nil => rfl
  | cons e es ih =>
      have hRest : ∀ e ∈ es, codec.WritesLine e := by
        intro e' he'
        exact hWrites e' (List.mem_cons_of_mem _ he')
      have hHead := hWrites e List.mem_cons_self
      rw [List.map_cons, texts_cons, hHead.trim_eq,
        if_neg hHead.ne_empty, ih hRest]

theorem texts_append
    (xs ys : List String) :
    texts (xs ++ ys) = texts xs ++ texts ys := by
  simp [texts]

end AppendOnlyLog

end Kron

------------------------------------------------------------
-- The Lines Of An Appended File
------------------------------------------------------------

namespace Kron

namespace AppendOnlyLog

open Text

variable {codec : JsonCodec LogEntry}

/- The strings read are those whose bytes are the lines. -/
theorem readLines_eq_ok_iff
    (file : Bytes)
    (strings : List String) :
    readLines file = .ok strings ↔
      lines file = strings.map utf8 := by
  apply mapM_decode_eq_ok_iff
  intro line s
  rw [← fromUtf8_eq_some_iff, readLine]
  cases fromUtf8 line with
  | none => simp
  | some t => simp

theorem appendAll_eq
    (file : Bytes)
    (events : List (Event × DateTime)) :
    appendAll codec file events =
      file ++ encodeAll codec (entriesOf events) := by
  induction events generalizing file with
  | nil => simp [appendAll, encodeAll, entriesOf]
  | cons event events ih =>
      have hStep :
          appendAll codec file (event :: events) =
            appendAll codec
              (append codec file event.1 event.2) events :=
        rfl
      rw [hStep, ih]
      simp [append, encodeAll, entriesOf]

theorem encodeLine_eq
    (entry : LogEntry) :
    encodeLine codec entry =
      utf8 (codec.toText entry) ++ [newline] := by
  unfold encodeLine
  rw [utf8_append]
  rfl

/- Records appended to a file continue its last line. -/
theorem lines_append_encodeAll
    (file : Bytes)
    {e : LogEntry}
    {es : List LogEntry}
    (hWrites : ∀ e' ∈ e :: es, codec.WritesLine e') :
    lines (file ++ encodeAll codec (e :: es)) =
      lines (closedPart file) ++
        (lastLine file ++ utf8 (codec.toText e)) ::
          es.map (fun e => utf8 (codec.toText e)) := by
  induction es generalizing file e with
  | nil =>
      have hNo := (hWrites e List.mem_cons_self).noNewline
      have hLine := lines_append_line file hNo []
      simpa [encodeAll, encodeLine_eq, lines] using hLine
  | cons e' es ih =>
      have hNo := (hWrites e List.mem_cons_self).noNewline
      have hRest : ∀ e'' ∈ e' :: es, codec.WritesLine e'' := by
        intro e'' he''
        exact hWrites e'' (List.mem_cons_of_mem _ he'')
      have hLine :=
        lines_append_line file hNo
          (encodeAll codec (e' :: es))
      have hTail := ih [] hRest
      have hEncode :
          encodeAll codec (e :: e' :: es) =
            utf8 (codec.toText e) ++
              newline :: encodeAll codec (e' :: es) := by
        simp [encodeAll, encodeLine_eq]
      rw [hEncode, hLine]
      simp only [List.nil_append] at hTail
      rw [hTail]
      simp [closedPart, lastLine, lines]

/- Split the strings read at the last newline. -/
theorem exists_closed_strings
    {file : Bytes}
    {strings : List String}
    (hRead : readLines file = .ok strings) :
    ∃ closed last,
      strings = closed ++ last ∧
        lines (closedPart file) = closed.map utf8 ∧
          lines (lastLine file) = last.map utf8 := by
  rw [readLines_eq_ok_iff, lines_eq_closedPart] at hRead
  rcases List.map_eq_append_iff.mp hRead.symm with
    ⟨closed, last, hSplit, hClosed, hLast⟩
  exact ⟨closed, last, hSplit, hClosed.symm, hLast.symm⟩

/-
  Reading after records are appended to a file whose last
  line is `s`: the first of them is read together with `s`.
-/
theorem readLines_append_encodeAll
    {file : Bytes}
    {closed : List String}
    {s : String}
    (hClosed : lines (closedPart file) = closed.map utf8)
    (hLast : lastLine file = utf8 s)
    {e : LogEntry}
    {es : List LogEntry}
    (hWrites : ∀ e' ∈ e :: es, codec.WritesLine e') :
    readLines (file ++ encodeAll codec (e :: es)) =
      .ok
        (closed ++
          (s ++ codec.toText e) :: es.map codec.toText) := by
  rw [readLines_eq_ok_iff,
    lines_append_encodeAll file hWrites, hClosed, hLast]
  simp

end AppendOnlyLog

end Kron

------------------------------------------------------------
-- Appending After Recovery
------------------------------------------------------------

namespace Kron

namespace AppendOnlyLog

open Text

variable (codec : JsonCodec LogEntry)

/- The last nonblank line of a file, trimmed. -/
def lastText
    (file : Bytes) : Option String :=
  match readLines file with
  | .error _ => none
  | .ok strings => (texts strings).getLast?

/-
  The file does not end in a torn record: nothing but white
  space follows its last newline, and its last nonblank line
  parses.
-/
def EndsClean
    (file : Bytes) : Prop :=
  (∃ s, fromUtf8 (lastLine file) = some s ∧
      isBlank s = true) ∧
    ∀ t, lastText file = some t →
      ∃ entry, codec.fromText t = .ok entry

variable {codec}

/- The texts of a file are those of its lines, in order. -/
theorem texts_eq_closed
    {file : Bytes}
    {closed last : List String}
    {s : String}
    (hLast : lastLine file = utf8 s)
    (hLines : lines (lastLine file) = last.map utf8) :
    texts (closed ++ last) = texts closed ++ texts [s] := by
  rw [texts_append]
  rw [lines_lastLine, hLast] at hLines
  by_cases hNil : utf8 s = []
  · rw [if_pos hNil] at hLines
    have hEmpty : last = [] := by
      simpa using hLines.symm
    have hs : s = "" := by
      by_contra hNe
      exact utf8_ne_nil hNe hNil
    rw [hEmpty, hs]
    rfl
  · rw [if_neg hNil] at hLines
    rcases List.map_eq_singleton_iff.mp hLines.symm with
      ⟨t, hLastEq, hts⟩
    rw [hLastEq, utf8_injective hts]

/- After a blank last line the new records stand alone. -/
theorem texts_append_of_isBlank
    {file : Bytes}
    {strings : List String}
    {s : String}
    (hRead : readLines file = .ok strings)
    (hLast : lastLine file = utf8 s)
    (hBlank : isBlank s = true)
    {e : LogEntry}
    {es : List LogEntry}
    (hWrites : ∀ e' ∈ e :: es, codec.WritesLine e') :
    ∃ strings',
      readLines (file ++ encodeAll codec (e :: es)) =
          .ok strings' ∧
        texts strings' =
          texts strings ++ (e :: es).map codec.toText := by
  rcases exists_closed_strings hRead with
    ⟨closed, last, hStrings, hClosed, hLastLines⟩
  have hHead := hWrites e List.mem_cons_self
  have hRest : ∀ e' ∈ es, codec.WritesLine e' := by
    intro e' he'
    exact hWrites e' (List.mem_cons_of_mem _ he')
  have hBlankText : texts [s] = [] := by
    rw [texts_cons,
      if_pos ((trim_eq_empty_iff s).mpr hBlank)]
    rfl
  refine
    ⟨_, readLines_append_encodeAll hClosed hLast hWrites,
      ?_⟩
  rw [texts_append, texts_cons,
    trim_append_of_isBlank hBlank, hHead.trim_eq,
    if_neg hHead.ne_empty, texts_map_toText hRest,
    hStrings, texts_eq_closed hLast hLastLines,
    hBlankText]
  simp

/- After another last line the first record joins it. -/
theorem texts_append_of_not_isBlank
    {file : Bytes}
    {strings : List String}
    {s : String}
    (hRead : readLines file = .ok strings)
    (hLast : lastLine file = utf8 s)
    (hText : isBlank s = false)
    {e : LogEntry}
    {es : List LogEntry}
    (hWrites : ∀ e' ∈ e :: es, codec.WritesLine e') :
    ∃ front strings',
      texts strings = front ++ [trim s] ∧
        readLines (file ++ encodeAll codec (e :: es)) =
            .ok strings' ∧
          texts strings' =
            front ++
              trim (s ++ codec.toText e) ::
                es.map codec.toText := by
  rcases exists_closed_strings hRead with
    ⟨closed, last, hStrings, hClosed, hLastLines⟩
  have hTrim : trim s ≠ "" := by
    intro hEmpty
    rw [(trim_eq_empty_iff s).mp hEmpty] at hText
    cases hText
  have hRest : ∀ e' ∈ es, codec.WritesLine e' := by
    intro e' he'
    exact hWrites e' (List.mem_cons_of_mem _ he')
  have hJoined : trim (s ++ codec.toText e) ≠ "" := by
    intro hEmpty
    have hBlank := (trim_eq_empty_iff _).mp hEmpty
    rw [isBlank_append, hText] at hBlank
    cases hBlank
  refine
    ⟨texts closed, _, ?_,
      readLines_append_encodeAll hClosed hLast hWrites,
      ?_⟩
  · rw [hStrings, texts_eq_closed hLast hLastLines,
      texts_cons, if_neg hTrim]
    rfl
  · rw [texts_append, texts_cons, if_neg hJoined,
      texts_map_toText hRest]

/- A file that is read has a last line that is a string. -/
theorem exists_lastLine_string
    {file : Bytes}
    {strings : List String}
    (hRead : readLines file = .ok strings) :
    ∃ s, lastLine file = utf8 s := by
  rcases exists_closed_strings hRead with
    ⟨_, last, _, _, hLastLines⟩
  rw [lines_lastLine] at hLastLines
  by_cases hNil : lastLine file = []
  · exact ⟨"", by rw [hNil]; simp [utf8]⟩
  · rw [if_neg hNil] at hLastLines
    rcases List.map_eq_singleton_iff.mp
        hLastLines.symm with ⟨t, _, ht⟩
    exact ⟨t, ht.symm⟩

/- Texts that decode and end in one that parses all parse. -/
theorem forall_ok_of_getLast?
    {ts : List String}
    {es : List LogEntry}
    (hDecode : decodeTexts codec ts = some es)
    (hEnd :
      ∀ t, ts.getLast? = some t →
        ∃ entry, codec.fromText t = .ok entry) :
    ∀ t ∈ ts, ∃ entry, codec.fromText t = .ok entry := by
  rcases List.eq_nil_or_concat' ts with
    hNil | ⟨xs, x, hConcat⟩
  · simp [hNil]
  · rw [hConcat] at hDecode hEnd ⊢
    have hx := hEnd x (by simp)
    intro t ht
    rcases List.mem_append.mp ht with hInit | hLast
    · exact forall_ok_of_decodeTexts hDecode t hInit
    · rw [List.mem_singleton.mp hLast]
      exact hx

/- Records appended to a clean file are read after it. -/
theorem replay_append_of_endsClean
    {path : String}
    {file : Bytes}
    {es entries : List LogEntry}
    (hWrites : ∀ e ∈ entries, codec.WritesLine e)
    (hClean : EndsClean codec file)
    (hReplay : replay codec path file = .ok es) :
    replay codec path (file ++ encodeAll codec entries) =
      .ok (es ++ entries) := by
  unfold replay at hReplay ⊢
  cases entries with
  | nil => simpa [encodeAll] using hReplay
  | cons e rest =>
      rw [replayReader_eq_ok_iff] at hReplay ⊢
      rcases hReplay with ⟨strings, hRead, hDecode⟩
      rcases hClean.1 with ⟨s, hLast, hBlank⟩
      rcases texts_append_of_isBlank hRead
          (utf8_of_fromUtf8 hLast) hBlank hWrites with
        ⟨strings', hRead', hTexts⟩
      have hAll :=
        forall_ok_of_getLast? hDecode
          (by simpa [lastText, hRead] using hClean.2)
      rcases decodeTexts_append hAll
          ((e :: rest).map codec.toText) with
        ⟨front, hFront, _, hAppend⟩
      have hes : front = es := by
        rw [hDecode] at hFront
        exact (Option.some.inj hFront).symm
      refine ⟨strings', hRead', ?_⟩
      rw [hTexts, hAppend, decodeTexts_map_toText hWrites,
        hes]
      rfl

/-
  Records appended to a file that does not end cleanly are
  never read: the reader fails or returns no more than it
  did before.
-/
theorem prefix_of_replay_append_of_not_endsClean
    {path : String}
    {file : Bytes}
    {es : List LogEntry}
    {e : LogEntry}
    {rest r : List LogEntry}
    (hCont : codec.ContinuationFails)
    (hWrites : ∀ e' ∈ e :: rest, codec.WritesLine e')
    (hTorn : ¬ EndsClean codec file)
    (hReplay : replay codec path file = .ok es)
    (hAfter :
      replay codec path
          (file ++ encodeAll codec (e :: rest)) = .ok r) :
    r <+: es := by
  unfold replay at hReplay hAfter
  rw [replayReader_eq_ok_iff] at hReplay hAfter
  rcases hReplay with ⟨strings, hRead, hDecode⟩
  rcases hAfter with ⟨strings', hRead', hDecode'⟩
  rcases exists_lastLine_string hRead with ⟨s, hLast⟩
  cases hBlank : isBlank s with
  | true =>
      -- the last nonblank line is torn and now in the middle
      have hTornText :
          ∃ t, lastText file = some t ∧
            ¬ ∃ entry, codec.fromText t = .ok entry := by
        by_contra hNone
        push Not at hNone
        refine hTorn ⟨⟨s, ?_, hBlank⟩, hNone⟩
        rw [hLast, fromUtf8_utf8]
      rcases hTornText with ⟨t, ht, hNotOk⟩
      have hGetLast : (texts strings).getLast? = some t := by
        simpa [lastText, hRead] using ht
      rcases List.getLast?_eq_some_iff.mp hGetLast with
        ⟨xs, hxs⟩
      rcases texts_append_of_isBlank hRead hLast hBlank
          hWrites with ⟨strings'', hRead'', hTexts⟩
      rw [hRead'] at hRead''
      cases hRead''
      cases hParse : codec.fromText t with
      | ok entry => exact (hNotOk ⟨entry, hParse⟩).elim
      | error err =>
          rw [hTexts, hxs, List.append_assoc,
            List.singleton_append] at hDecode'
          have hNil :=
            (decodeTexts_of_error hParse hDecode').1
          simp at hNil
  | false =>
      -- the first new record is read as part of the torn one
      rcases texts_append_of_not_isBlank hRead hLast hBlank
          hWrites with
        ⟨front, strings'', hTexts, hRead'', hTexts'⟩
      rw [hRead'] at hRead''
      cases hRead''
      rw [hTexts] at hDecode
      rw [hTexts'] at hDecode'
      rcases decodeTexts_append
          (forall_ok_of_decodeTexts hDecode) [trim s] with
        ⟨fs, hfs, _, hAppend⟩
      rcases decodeTexts_append
          (forall_ok_of_decodeTexts hDecode)
          (trim (s ++ codec.toText e) ::
            rest.map codec.toText) with
        ⟨fs', hfs', _, hAppend'⟩
      have hSame : fs' = fs := by
        rw [hfs] at hfs'
        exact (Option.some.inj hfs').symm
      rw [hAppend] at hDecode
      rcases Option.map_eq_some_iff.mp hDecode with
        ⟨tail, hTail, hEs⟩
      have hComplete : codec.IsComplete (trim s) := by
        simp only [decodeTexts] at hTail
        cases hParse : codec.fromText (trim s) with
        | ok entry => exact Or.inl ⟨entry, hParse⟩
        | error err =>
            rw [hParse] at hTail
            right
            refine ⟨err, hParse, ?_⟩
            by_contra hEof
            simp [hEof] at hTail
      rcases hCont s e hBlank hComplete with ⟨err, hErr⟩
      rw [hAppend', hSame] at hDecode'
      rcases Option.map_eq_some_iff.mp hDecode' with
        ⟨tail', hTail', hR⟩
      have hNoTail : tail' = [] := by
        have hSplit :
            decodeTexts codec
                ([] ++ trim (s ++ codec.toText e) ::
                  rest.map codec.toText) = some tail' :=
          hTail'
        have hLen := (decodeTexts_of_error hErr hSplit).2
        exact List.eq_nil_of_length_eq_zero hLen
      rw [← hR, ← hEs, hNoTail, List.append_nil]
      exact List.prefix_append fs tail

/- An empty file is clean. -/
theorem endsClean_nil :
    EndsClean codec [] := by
  constructor
  · exact ⟨"", by decide, by decide⟩
  · intro t ht
    have hNone : lastText [] = none := rfl
    rw [hNone] at ht
    cases ht

/- Records appended to a clean file leave it clean. -/
theorem endsClean_append
    {path : String}
    {file : Bytes}
    {es entries : List LogEntry}
    (hWrites : ∀ e ∈ entries, codec.WritesLine e)
    (hClean : EndsClean codec file)
    (hReplay : replay codec path file = .ok es) :
    EndsClean codec (file ++ encodeAll codec entries) := by
  cases entries with
  | nil => simpa [encodeAll] using hClean
  | cons e rest =>
      unfold replay at hReplay
      rcases (replayReader_eq_ok_iff codec path file es).mp
          hReplay with ⟨strings, hRead, _⟩
      rcases hClean.1 with ⟨s, hLast, hBlank⟩
      rcases texts_append_of_isBlank hRead
          (utf8_of_fromUtf8 hLast) hBlank hWrites with
        ⟨strings', hRead', hTexts⟩
      constructor
      · have hEnd :
            ∃ init,
              file ++ encodeAll codec (e :: rest) =
                init ++ [newline] := by
          rcases List.eq_nil_or_concat' (e :: rest) with
            hNil | ⟨front, last, hConcat⟩
          · cases hNil
          · refine
              ⟨file ++ (encodeAll codec front ++
                utf8 (codec.toText last)), ?_⟩
            rw [hConcat]
            simp [encodeAll, encodeLine_eq]
        rcases hEnd with ⟨init, hInit⟩
        have hLastNil :
            lastLine (file ++ encodeAll codec (e :: rest)) =
              [] := by
          rw [hInit]
          exact
            List.rtakeWhile_concat_neg _ init newline
              (by simp)
        rw [hLastNil]
        exact ⟨"", by decide, by decide⟩
      · intro t ht
        have hGetLast :
            ((e :: rest).map codec.toText).getLast? =
              some t := by
          have hText : (texts strings').getLast? = some t := by
            simpa [lastText, hRead'] using ht
          rw [hTexts, List.getLast?_append] at hText
          simpa using hText
        rcases List.mem_map.mp
            (List.mem_of_getLast? hGetLast) with
          ⟨entry, hMem, hEq⟩
        exact ⟨entry, hEq ▸ (hWrites entry hMem).decodes⟩

/- Written records are read back. -/
theorem replay_encodeAll
    (path : String)
    {entries : List LogEntry}
    (hWrites : ∀ e ∈ entries, codec.WritesLine e) :
    replay codec path (encodeAll codec entries) =
      .ok entries := by
  have hEmpty : replay codec path [] = .ok [] := rfl
  have hAppend :=
    replay_append_of_endsClean hWrites endsClean_nil hEmpty
  simpa using hAppend

/- Written records end cleanly. -/
theorem endsClean_encodeAll
    {entries : List LogEntry}
    (hWrites : ∀ e ∈ entries, codec.WritesLine e) :
    EndsClean codec (encodeAll codec entries) := by
  have hEmpty : replay codec "" [] = .ok [] := rfl
  have hAppend :=
    endsClean_append hWrites endsClean_nil hEmpty
  simpa using hAppend

end AppendOnlyLog

end Kron

------------------------------------------------------------
-- Reading From The Middle
------------------------------------------------------------

namespace Kron

namespace AppendOnlyLog

open Text

variable {codec : JsonCodec LogEntry}

/-
  Reading that starts inside a record: what is left of the
  record is a line of its own.
-/
theorem suffix_of_replay_rest
    {path : String}
    {e : LogEntry}
    {es r : List LogEntry}
    {rest : Bytes}
    {k : Nat}
    (hSuffix : codec.SuffixFails)
    (hNo : newline ∉ utf8 (codec.toText e))
    (hk : 0 < k)
    (hIn : k ≤ (utf8 (codec.toText e)).length)
    (hRest : replay codec path rest = .ok es)
    (hReplay :
      replay codec path
          ((utf8 (codec.toText e)).drop k ++
            newline :: rest) = .ok r) :
    r <:+ es := by
  unfold replay at hRest hReplay
  rw [replayReader_eq_ok_iff] at hRest hReplay
  rcases hRest with ⟨strings, hRead, hDecode⟩
  rcases hReplay with ⟨strings', hRead', hDecode'⟩
  rw [readLines_eq_ok_iff] at hRead hRead'
  have hNoRest : newline ∉ (utf8 (codec.toText e)).drop k := by
    intro hMem
    exact hNo (List.mem_of_mem_drop hMem)
  rw [lines_append_newline, lines_closed_line hNoRest,
    hRead, List.singleton_append] at hRead'
  rcases List.map_eq_cons_iff.mp hRead'.symm with
    ⟨u, strings'', hStrings, hu, hMap⟩
  have hSame : strings'' = strings :=
    utf8_injective.list_map hMap
  rw [hStrings, hSame, texts_cons] at hDecode'
  by_cases hBlank : trim u = ""
  · rw [if_pos hBlank, hDecode] at hDecode'
    rw [Option.some.inj hDecode']
  · rw [if_neg hBlank] at hDecode'
    have hText :
        utf8 (codec.toText e) =
          (utf8 (codec.toText e)).take k ++ utf8 u := by
      rw [hu, List.take_append_drop]
    rcases exists_append_of_utf8_eq hText with
      ⟨s, hSplit, hs⟩
    have hsNe : s ≠ "" := by
      intro hEmpty
      have hLen := congrArg List.length hs
      have hNone : (utf8 "").length = 0 := rfl
      rw [hEmpty, List.length_take, hNone] at hLen
      omega
    have huNe : u ≠ "" := by
      intro hEmpty
      apply hBlank
      rw [hEmpty]
      decide
    rcases hSuffix e s u hSplit hsNe huNe with ⟨err, hErr⟩
    have hLost :
        decodeTexts codec ([] ++ trim u :: texts strings) =
          some r := hDecode'
    have hLen := (decodeTexts_of_error hErr hLost).2
    rw [List.eq_nil_of_length_eq_zero hLen]
    exact List.nil_suffix

/-
  Reading that starts after the first byte of the records
  never returns the first of them.
-/
theorem suffix_of_replayFrom_encodeAll
    {path : String}
    {e : LogEntry}
    {es r : List LogEntry}
    {k : Nat}
    (hSuffix : codec.SuffixFails)
    (hWrites : ∀ e' ∈ e :: es, codec.WritesLine e')
    (hk : 0 < k)
    (hReplay :
      replayFrom codec path (encodeAll codec (e :: es)) k =
        .ok r) :
    r <:+ es := by
  induction es generalizing e k with
  | nil =>
      have hEncode :
          encodeAll codec [e] =
            utf8 (codec.toText e) ++ [newline] := by
        simp [encodeAll, encodeLine_eq]
      rw [hEncode] at hReplay
      unfold replayFrom at hReplay
      by_cases hIn : k ≤ (utf8 (codec.toText e)).length
      · rw [List.drop_append_of_le_length hIn] at hReplay
        exact
          suffix_of_replay_rest hSuffix
            (hWrites e List.mem_cons_self).noNewline hk hIn
            rfl hReplay
      · have hNil :
            (utf8 (codec.toText e) ++ [newline]).drop k =
              [] := by
          apply List.drop_eq_nil_of_le
          simp only [List.length_append,
            List.length_singleton]
          omega
        rw [hNil] at hReplay
        cases hReplay
        exact List.nil_suffix
  | cons e' es ih =>
      have hRest :
          ∀ e'' ∈ e' :: es, codec.WritesLine e'' := by
        intro e'' he''
        exact hWrites e'' (List.mem_cons_of_mem _ he'')
      have hEncode :
          encodeAll codec (e :: e' :: es) =
            (utf8 (codec.toText e) ++ [newline]) ++
              encodeAll codec (e' :: es) := by
        simp [encodeAll, encodeLine_eq]
      by_cases hIn : k ≤ (utf8 (codec.toText e)).length
      · rw [hEncode, List.append_assoc] at hReplay
        unfold replayFrom at hReplay
        rw [List.drop_append_of_le_length hIn] at hReplay
        exact
          suffix_of_replay_rest hSuffix
            (hWrites e List.mem_cons_self).noNewline hk hIn
            (replay_encodeAll path hRest) hReplay
      · have hLine :
            (utf8 (codec.toText e) ++ [newline]).length ≤
              k := by
          simp only [List.length_append,
            List.length_singleton]
          omega
        rw [hEncode] at hReplay
        unfold replayFrom at hReplay
        rw [List.drop_append,
          List.drop_eq_nil_of_le hLine,
          List.nil_append] at hReplay
        by_cases hEnd :
            k - (utf8 (codec.toText e) ++
              [newline]).length = 0
        · rw [hEnd] at hReplay
          have hAll := replay_encodeAll path hRest
          unfold replay at hAll
          rw [List.drop_zero, hAll] at hReplay
          cases hReplay
          exact List.suffix_rfl
        · have hTail :=
            ih hRest (Nat.pos_of_ne_zero hEnd) hReplay
          exact hTail.trans (List.suffix_cons e' es)

end AppendOnlyLog

end Kron

------------------------------------------------------------
-- Dead Runs As They Are Written
------------------------------------------------------------

namespace Kron

namespace AppendOnlyLog

open Text

/- The event that run `run_1` of a timer is dead. -/
def deadEvent
    (timer : TimerId) : Event :=
  .runDead timer "run_1" 0

/- The line that `deadEvent` is written as at time zero. -/
def deadText
    (timer : String) : String :=
  "\x7b\"v\":1,\"ts\":\"1970-01-01T00:00:00Z\"," ++
    "\"event\":\x7b\"type\":\"RUN_DEAD\"," ++
    "\"timer_id\":\"" ++ timer ++
    "\",\"run_id\":\"run_1\"," ++
    "\"at\":\"1970-01-01T00:00:00Z\"\x7d\x7d"

/- The dead runs of timers `a` and `b` as they are written. -/
def deadTable : List (LogEntry × String) :=
  [(LogEntry.new (deadEvent "a") 0, deadText "a"),
    (LogEntry.new (deadEvent "b") 0, deadText "b")]

theorem deadTable_ok :
    TableOk deadTable where
  shape := by decide +kernel
  suffixFree := by decide +kernel

/- A codec that writes dead runs as the real one does. -/
noncomputable def deadCodec : JsonCodec LogEntry :=
  tableCodec deadTable

theorem deadCodec_writesLine
    (e : LogEntry) :
    deadCodec.WritesLine e :=
  tableCodec_writesLine deadTable_ok
    (by decide +kernel) e

theorem deadCodec_continuationFails :
    deadCodec.ContinuationFails :=
  tableCodec_continuationFails deadTable_ok

end AppendOnlyLog

end Kron

------------------------------------------------------------
-- The Append-After-Recovery Law
------------------------------------------------------------

namespace Kron

namespace AppendOnlyLog

open Text

/-
  Events appended after a recovery are read back exactly
  when the recovered file does not end in a torn record.
-/
theorem replay_append_iff_endsClean
    (codec : JsonCodec LogEntry)
    (hCont : codec.ContinuationFails)
    (hWrites : ∀ e, codec.WritesLine e)
    (path : String)
    (file : Bytes)
    (es : List LogEntry)
    (hReplay : replay codec path file = .ok es)
    (events : List (Event × DateTime))
    (hNe : events ≠ []) :
    replay codec path
          (appendAll codec (openFile (some file)) events) =
        .ok (es ++ entriesOf events) ↔
      EndsClean codec file := by
  have hOpen : openFile (some file) = file := rfl
  rw [hOpen, appendAll_eq]
  constructor
  · intro hAfter
    by_contra hTorn
    cases hEvents : entriesOf events with
    | nil =>
        simp [entriesOf] at hEvents
        exact hNe hEvents
    | cons e rest =>
        rw [hEvents] at hAfter
        have hPrefix :=
          prefix_of_replay_append_of_not_endsClean hCont
            (fun e' _ => hWrites e') hTorn hReplay hAfter
        have hLen := hPrefix.length_le
        simp only [List.length_append,
          List.length_cons] at hLen
        omega
  · intro hClean
    exact replay_append_of_endsClean
      (fun e _ => hWrites e) hClean hReplay

/- An event appended to a closed record is read after it. -/
theorem replay_append_dead_after_record :
    replay deadCodec "kron.aof"
        (appendAll deadCodec
          (openFile
            (some
              (encodeAll deadCodec
                [LogEntry.new (deadEvent "a") 0])))
          [(deadEvent "b", 0)]) =
      .ok
        [LogEntry.new (deadEvent "a") 0,
          LogEntry.new (deadEvent "b") 0] := by
  have hWrites :
      ∀ e ∈ [LogEntry.new (deadEvent "a") 0],
        deadCodec.WritesLine e :=
    fun e _ => deadCodec_writesLine e
  exact
    (replay_append_iff_endsClean deadCodec
      deadCodec_continuationFails deadCodec_writesLine
      "kron.aof" _ _ (replay_encodeAll "kron.aof" hWrites)
      [(deadEvent "b", 0)] (by simp)).mpr
      (endsClean_encodeAll hWrites)

/- The first bytes of a record, as a crash leaves them. -/
def tornRecord : String :=
  "\x7b\"v\":1,\"ts\":\"1970"

theorem replay_tornRecord :
    replay deadCodec "kron.aof" (utf8 tornRecord) =
      .ok [] := by
  unfold replay
  rw [replayReader_eq_ok_iff]
  refine ⟨[tornRecord], ?_, ?_⟩
  · rw [readLines_eq_ok_iff]
    decide +kernel
  · have hChars :
        tableChars deadTable
            (LogEntry.new (deadEvent "a") 0) =
          (deadText "a").toList := rfl
    have hEof :
        ∃ e,
          deadCodec.fromText (trim tornRecord) = .error e ∧
            e.isEof = true := by
      apply tableCodec_fromText_eof deadTable_ok
        (a := LogEntry.new (deadEvent "a") 0)
      · rw [hChars]
        decide +kernel
      · decide +kernel
    rcases hEof with ⟨e, hErr, hIsEof⟩
    have hTexts : texts [tornRecord] = [trim tornRecord] := by
      decide +kernel
    rw [hTexts]
    simp [decodeTexts, hErr, hIsEof]

theorem not_endsClean_tornRecord :
    ¬ EndsClean deadCodec (utf8 tornRecord) := by
  rintro ⟨⟨s, hLast, hBlank⟩, _⟩
  have hLine :
      lastLine (utf8 tornRecord) = utf8 tornRecord := by
    decide +kernel
  rw [hLine, fromUtf8_utf8] at hLast
  cases hLast
  revert hBlank
  decide +kernel

/-
  After a crash that cut a record short the log is accepted
  as empty, and the event appended next is not read back.
-/
theorem replay_append_after_tornRecord :
    deadCodec.ContinuationFails ∧
      (∀ e, deadCodec.WritesLine e) ∧
      replay deadCodec "kron.aof" (utf8 tornRecord) =
        .ok [] ∧
      replay deadCodec "kron.aof"
          (appendAll deadCodec
            (openFile (some (utf8 tornRecord)))
            [(deadEvent "a", 0)]) ≠
        .ok ([] ++ entriesOf [(deadEvent "a", 0)]) := by
  refine
    ⟨deadCodec_continuationFails, deadCodec_writesLine,
      replay_tornRecord, ?_⟩
  intro hAfter
  have hOpen :
      openFile (some (utf8 tornRecord)) = utf8 tornRecord :=
    rfl
  rw [hOpen, appendAll_eq] at hAfter
  have hPrefix :=
    prefix_of_replay_append_of_not_endsClean
      deadCodec_continuationFails
      (fun e _ => deadCodec_writesLine e)
      not_endsClean_tornRecord replay_tornRecord hAfter
  have hLen := hPrefix.length_le
  simp [entriesOf] at hLen

end AppendOnlyLog

end Kron
