import Kron.Lib.Text

/-
  The text of HTTP messages, as a server without a library
  reads it: lines up to an empty one, a request line of
  words, and headers with a colon.

  Key definitions include:
    * `HttpText.readLine`
    * `HttpText.readHead`
    * `HttpText.chomp`
    * `HttpText.splitOnce`
    * `HttpText.lossy`

  Key theorems include:
    * `HttpText.newline_mem_utf8_iff`
    * `HttpText.readHead_crlfLines`
    * `HttpText.no_newline_of_readHead`
-/

------------------------------------------------------------
-- Lines
------------------------------------------------------------

namespace HttpText

open Text

/- `read_line`: a line with its newline, and what follows. -/
def readLine : Bytes → Bytes × Bytes
| [] => ([], [])
| b :: bs =>
    if b = newline then
      ([b], bs)
    else
      (b :: (readLine bs).1, (readLine bs).2)

theorem length_readLine_le
    (bs : Bytes) :
    (readLine bs).2.length ≤ bs.length := by
  induction bs with
  | nil => exact Nat.le_refl 0
  | cons b bs ih =>
      unfold readLine
      split
      · exact Nat.le_succ _
      · exact Nat.le_succ_of_le ih

theorem length_readLine_lt
    {bs : Bytes}
    (hNe : bs ≠ []) :
    (readLine bs).2.length < bs.length := by
  cases bs with
  | nil => exact (hNe rfl).elim
  | cons b bs =>
      unfold readLine
      split
      · exact Nat.lt_succ_self _
      · exact Nat.lt_succ_of_le (length_readLine_le bs)

/-
  Read lines until an empty one or the end; none when one of
  them is not UTF-8. What is left is the body.
-/
def readHead
    (bs : Bytes) : Option (List String × Bytes) :=
  if _hNil : bs = [] then
    some ([], [])
  else
    match fromUtf8 (readLine bs).1 with
    | none => none
    | some line =>
        if line = "\r\n" then
          some ([], (readLine bs).2)
        else
          (readHead (readLine bs).2).map fun head =>
            (line :: head.1, head.2)
termination_by bs.length
decreasing_by
  exact length_readLine_lt _hNil

/- Drop a newline at the end, and a carriage return before. -/
def chomp
    (line : String) : String :=
  if line.toList.getLast? = some '\n' then
    let text := line.toList.dropLast
    if text.getLast? = some '\r' then
      String.ofList text.dropLast
    else
      String.ofList text
  else
    line

end HttpText

------------------------------------------------------------
-- Words And Headers
------------------------------------------------------------

namespace HttpText

open Text

/- `split_whitespace`. -/
def splitWhitespace
    (s : String) : List String :=
  ((s.toList.splitOnP isWhitespace).filter
    fun word => !word.isEmpty).map String.ofList

/- `split_once`: what stands before and after a character. -/
def splitOnce
    (c : Char)
    (s : String) : Option (String × String) :=
  match s.toList.dropWhile (· ≠ c) with
  | [] => none
  | _ :: rest =>
      some
        (String.ofList (s.toList.takeWhile (· ≠ c)),
          String.ofList rest)

def eqIgnoreAsciiCase
    (s t : String) : Bool :=
  s.toList.map Char.toLower == t.toList.map Char.toLower

/- The parts between slashes, without those around. -/
def segments
    (path : String) : List String :=
  (((path.toList.dropWhile (· = '/')).rdropWhile
    (· = '/')).splitOn '/').map String.ofList

end HttpText

------------------------------------------------------------
-- Lossy Decoding
------------------------------------------------------------

namespace HttpText

open Text

/- Whether a byte continues a character. -/
def isContinuation
    (b : UInt8) : Bool :=
  0x80 ≤ b && b < 0xC0

/- Whether a character may start with both bytes. -/
def mayFollow
    (first second : UInt8) : Bool :=
  if first = 0xE0 then
    0xA0 ≤ second && second < 0xC0
  else if first = 0xED then
    0x80 ≤ second && second < 0xA0
  else if first = 0xF0 then
    0x90 ≤ second && second < 0xC0
  else if first = 0xF4 then
    0x80 ≤ second && second < 0x90
  else
    isContinuation second

/-
  How many bytes one replacement character stands for: those
  that a character may begin with.
-/
def badLength : Bytes → Nat
| first :: second :: third :: _ =>
    if 0xE0 ≤ first && first < 0xF5 &&
        mayFollow first second then
      if 0xF0 ≤ first && isContinuation third then
        3
      else
        2
    else
      1
| [first, second] =>
    if 0xE0 ≤ first && first < 0xF5 &&
        mayFollow first second then
      2
    else
      1
| _ => 1

/- Bytes that do not decode become replacement characters. -/
def replaceBad
    (bs : Bytes) : List Char :=
  if _hNil : bs = [] then
    []
  else
    match (ByteArray.mk bs.toArray).utf8DecodeChar? 0 with
    | some c => c :: replaceBad (bs.drop c.utf8Size)
    | none => '\uFFFD' :: replaceBad (bs.drop (badLength bs))
termination_by bs.length
decreasing_by
  all_goals
    have hPos : 0 < bs.length :=
      List.length_pos_of_ne_nil _hNil
    simp only [List.length_drop]
  · have hSize := c.utf8Size_pos
    omega
  · have hBad : 0 < badLength bs := by
      unfold badLength
      repeat' split
      all_goals decide
    omega

/- `from_utf8_lossy`. -/
def lossy
    (bs : Bytes) : String :=
  match fromUtf8 bs with
  | some s => s
  | none => String.ofList (replaceBad bs)

@[simp] theorem lossy_utf8
    (s : String) :
    lossy (utf8 s) = s := by
  unfold lossy
  rw [fromUtf8_utf8]

end HttpText

------------------------------------------------------------
-- Newlines In Bytes
------------------------------------------------------------

namespace HttpText

open Text

/- Only the newline is encoded with the byte of a newline. -/
theorem eq_newline_of_mem
    {c : Char}
    (hMem : newline ∈ String.utf8EncodeChar c) :
    c = '\n' := by
  rcases List.getElem_of_mem hMem with ⟨i, hi, hByte⟩
  have hFirst : (String.utf8EncodeChar c)[i].IsUTF8FirstByte := by
    rw [hByte]
    decide
  have hZero : i = 0 :=
    UInt8.isUTF8FirstByte_getElem_utf8EncodeChar.mp hFirst
  subst hZero
  cases hChars : String.utf8EncodeChar c with
  | nil =>
      rw [hChars] at hi
      cases hi
  | cons b rest =>
      simp only [hChars, List.getElem_cons_zero] at hByte
      subst hByte
      have hChar :=
        ByteArray.utf8DecodeChar?_utf8EncodeChar_append
          (b := ByteArray.empty) (c := c)
      have hLine :=
        ByteArray.utf8DecodeChar?_utf8EncodeChar_append
          (b := rest.toByteArray) (c := '\n')
      have hBytes :
          (String.utf8EncodeChar c).toByteArray ++
              ByteArray.empty =
            (String.utf8EncodeChar '\n').toByteArray ++
              rest.toByteArray := by
        rw [ByteArray.append_empty, hChars,
          ← List.toByteArray_append]
        rfl
      rw [hBytes, hLine] at hChar
      exact (Option.some.inj hChar).symm

theorem newline_mem_utf8_iff
    (s : String) :
    newline ∈ utf8 s ↔ '\n' ∈ s.toList := by
  rw [utf8_eq_flatMap]
  constructor
  · intro hMem
    rcases List.mem_flatMap.mp hMem with ⟨c, hc, hByte⟩
    rwa [eq_newline_of_mem hByte] at hc
  · intro hMem
    exact
      List.mem_flatMap.mpr
        ⟨'\n', hMem, List.mem_cons_self⟩

end HttpText

------------------------------------------------------------
-- Reading What Was Written
------------------------------------------------------------

namespace HttpText

open Text

/- Lines that each end in a carriage return and a newline. -/
def crlfLines
    (lines : List String) : String :=
  String.join (lines.map (· ++ "\r\n"))

theorem readLine_append
    {line : Bytes}
    (hLine : newline ∉ line)
    (rest : Bytes) :
    readLine (line ++ newline :: rest) =
      (line ++ [newline], rest) := by
  induction line with
  | nil => simp [readLine]
  | cons b line ih =>
      have hb : b ≠ newline := by
        rintro rfl
        exact hLine List.mem_cons_self
      have hRest := ih fun hMem =>
        hLine (List.mem_cons_of_mem _ hMem)
      simp [readLine, hb, hRest]

theorem readLine_crlf
    {line : String}
    (hLine : '\n' ∉ line.toList)
    (rest : Bytes) :
    readLine (utf8 (line ++ "\r\n") ++ rest) =
      (utf8 (line ++ "\r\n"), rest) := by
  have hCr : newline ∉ utf8 line ++ [13] := by
    rw [List.mem_append, newline_mem_utf8_iff]
    rintro (hMem | hMem)
    · exact hLine hMem
    · revert hMem
      decide
  have hSplit :
      utf8 (line ++ "\r\n") =
        (utf8 line ++ [13]) ++ [newline] := by
    rw [utf8_append, List.append_assoc]
    rfl
  rw [hSplit, List.append_assoc]
  exact readLine_append hCr rest

/- A head reads as its lines, and the body is what follows. -/
theorem readHead_crlfLines
    (lines : List String)
    (body : Bytes)
    (hLines :
      ∀ line ∈ lines, line ≠ "" ∧ '\n' ∉ line.toList) :
    readHead (utf8 (crlfLines lines ++ "\r\n") ++ body) =
      some (lines.map (· ++ "\r\n"), body) := by
  induction lines with
  | nil =>
      have hEmpty := @readLine_crlf "" (by simp) body
      rw [readHead, dif_neg (by simp [utf8_ne_nil])]
      simp only [crlfLines, List.map_nil, String.join_nil]
      rw [hEmpty]
      simp
  | cons line lines ih =>
      rcases hLines line List.mem_cons_self with
        ⟨hNe, hNo⟩
      have hRest := ih fun other hMem =>
        hLines other (List.mem_cons_of_mem _ hMem)
      have hText :
          utf8 (crlfLines (line :: lines) ++ "\r\n") ++ body =
            utf8 (line ++ "\r\n") ++
              (utf8 (crlfLines lines ++ "\r\n") ++ body) := by
        simp [crlfLines]
      have hOther : line ++ "\r\n" ≠ "\r\n" := by
        simpa using hNe
      rw [hText, readHead,
        dif_neg (by simp [utf8_ne_nil]),
        readLine_crlf hNo]
      simp only [fromUtf8_utf8, if_neg hOther, hRest]
      rfl

@[simp] theorem chomp_crlf
    (line : String) :
    chomp (line ++ "\r\n") = line := by
  have hChars :
      (line ++ "\r\n").toList =
        (line.toList ++ ['\r']) ++ ['\n'] := by
    simp
  unfold chomp
  simp only [hChars, List.getLast?_concat,
    List.dropLast_concat, if_true, String.ofList_toList]

/- A line without its newline has none. -/
theorem no_newline_chomp
    {line : String}
    (hLine : '\n' ∉ line.toList) :
    '\n' ∉ (chomp (line ++ "\n")).toList := by
  have hChars :
      (line ++ "\n").toList = line.toList ++ ['\n'] := by
    simp
  unfold chomp
  simp only [hChars, List.getLast?_concat, if_true,
    List.dropLast_concat]
  split
  · rw [String.toList_ofList]
    exact fun hMem => hLine (List.dropLast_subset _ hMem)
  · rwa [String.toList_ofList]

theorem chomp_of_no_newline
    {line : String}
    (hLine : '\n' ∉ line.toList) :
    chomp line = line := by
  unfold chomp
  rw [if_neg]
  intro hLast
  exact hLine (List.mem_of_getLast? hLast)

/- A line that was read has no newline but at its end. -/
theorem readLine_cases
    (bs : Bytes) :
    newline ∉ (readLine bs).1 ∨
      ∃ line,
        newline ∉ line ∧
          (readLine bs).1 = line ++ [newline] := by
  induction bs with
  | nil => exact .inl List.not_mem_nil
  | cons b bs ih =>
      unfold readLine
      split
      · rename_i hb
        subst hb
        exact .inr ⟨[], List.not_mem_nil, rfl⟩
      · rename_i hb
        have hNe : newline ≠ b := fun hEq => hb hEq.symm
        rcases ih with hNo | ⟨line, hNo, hLine⟩
        · left
          simp [hNe, hNo]
        · right
          exact
            ⟨b :: line, by simp [hNe, hNo], by
              rw [hLine]
              rfl⟩

theorem no_newline_of_readLine
    {bs : Bytes}
    {line : String}
    (hText : fromUtf8 (readLine bs).1 = some line) :
    '\n' ∉ (chomp line).toList := by
  have hBytes := utf8_of_fromUtf8 hText
  rcases readLine_cases bs with hNo | ⟨front, hNo, hLine⟩
  · rw [hBytes, newline_mem_utf8_iff] at hNo
    rwa [chomp_of_no_newline hNo]
  · rw [hBytes] at hLine
    have hEnd : utf8 line = front ++ utf8 "\n" := hLine
    rcases exists_append_of_utf8_eq hEnd with
      ⟨text, rfl, rfl⟩
    rw [newline_mem_utf8_iff] at hNo
    exact no_newline_chomp hNo

/- No line of a head has a newline inside. -/
theorem no_newline_of_readHead
    {bs body : Bytes}
    {lines : List String}
    (hHead : readHead bs = some (lines, body)) :
    ∀ line ∈ lines, '\n' ∉ (chomp line).toList := by
  fun_induction readHead bs generalizing lines with
  | case1 =>
      cases hHead
      exact fun _ hMem => by cases hMem
  | case2 bs hNe hText => cases hHead
  | case3 bs hNe hText =>
      cases hHead
      exact fun _ hMem => by cases hMem
  | case4 bs hNe line hText hEnd ih =>
      rcases Option.map_eq_some_iff.mp hHead with
        ⟨⟨rest, after⟩, hRest, hEq⟩
      cases hEq
      intro other hMem
      rcases List.mem_cons.mp hMem with rfl | hOther
      · exact no_newline_of_readLine hText
      · exact ih hRest other hOther

end HttpText

------------------------------------------------------------
-- Header Lines
------------------------------------------------------------

namespace HttpText

open Text

/- A name ends at the first colon. -/
theorem splitOnce_colon
    {name : String}
    (hName : ':' ∉ name.toList)
    (value : String) :
    splitOnce ':' (name ++ ":" ++ value) =
      some (name, value) := by
  have hAll :
      ∀ c ∈ name.toList, decide (c ≠ ':') = true := by
    intro c hMem
    rw [decide_eq_true_iff]
    rintro rfl
    exact hName hMem
  have hChars :
      (name ++ ":" ++ value).toList =
        name.toList ++ ':' :: value.toList := by
    simp
  unfold splitOnce
  rw [hChars, List.dropWhile_append_of_pos hAll,
    List.takeWhile_append_of_pos hAll]
  simp

/- The value of a header line is a part of it. -/
theorem splitOnce_subset
    {c : Char}
    {s name value : String}
    (hSplit : splitOnce c s = some (name, value)) :
    value.toList ⊆ s.toList := by
  unfold splitOnce at hSplit
  split at hSplit
  · cases hSplit
  · rename_i first rest hDrop
    cases hSplit
    rw [String.toList_ofList]
    intro d hMem
    have hRest : d ∈ s.toList.dropWhile (· ≠ c) := by
      rw [hDrop]
      exact List.mem_cons_of_mem _ hMem
    exact List.dropWhile_subset _ hRest

theorem trim_subset
    (s : String) :
    (trim s).toList ⊆ s.toList := by
  unfold trim
  rw [String.toList_ofList]
  intro c hMem
  exact
    List.dropWhile_subset _
      ((List.rdropWhile_prefix _ _).subset hMem)

/- A trimmed text does not end in white space. -/
theorem isWhitespace_of_getLast?_trim
    {s : String}
    {c : Char}
    (hLast : (trim s).toList.getLast? = some c) :
    isWhitespace c = false := by
  unfold trim at hLast
  rw [String.toList_ofList] at hLast
  rcases List.getLast?_eq_some_iff.mp hLast with
    ⟨front, hFront⟩
  have hNe :
      (s.toList.dropWhile isWhitespace).rdropWhile
        isWhitespace ≠ [] := by
    rw [hFront]
    simp
  have hNot :=
    List.rdropWhile_last_not isWhitespace
      (s.toList.dropWhile isWhitespace) hNe
  simpa [hFront] using hNot

end HttpText
