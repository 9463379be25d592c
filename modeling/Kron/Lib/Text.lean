import Mathlib

/-
  Text files as byte strings: UTF-8 decoding, Unicode
  trimming and splitting into lines.

  A line ends at a newline byte or at the end of the file,
  so a file is a closed part, which is empty or ends in a
  newline, followed by a last line without newline.

  Key definitions include:
    * `Text.utf8`
    * `Text.fromUtf8`
    * `Text.trim`
    * `Text.lines`
    * `Text.lastLine`
    * `Text.bufLines`

  Key theorems include:
    * `Text.lines_eq_closedPart`
    * `Text.lines_append_line`
    * `Text.lines_append_texts`
    * `Text.readStrings_eq_ok_iff`
    * `Text.trim_append_of_isBlank`
-/

------------------------------------------------------------
-- UTF-8
------------------------------------------------------------

/- The contents of a file. -/
abbrev Bytes :=
  List UInt8

namespace Text

/- The bytes of a string. -/
def utf8
    (s : String) : Bytes :=
  s.toByteArray.data.toList

/- Decode bytes that are valid UTF-8. -/
def fromUtf8
    (bs : Bytes) : Option String :=
  String.fromUTF8? ⟨bs.toArray⟩

@[simp] theorem utf8_append
    (s t : String) :
    utf8 (s ++ t) = utf8 s ++ utf8 t := by
  simp [utf8, String.toByteArray_append]

@[simp] theorem fromUtf8_utf8
    (s : String) :
    fromUtf8 (utf8 s) = some s := by
  unfold fromUtf8 utf8
  simp only [Array.toArray_toList]
  unfold String.fromUTF8?
  rw [dif_pos s.isValidUTF8]
  rfl

theorem utf8_injective :
    Function.Injective utf8 := by
  intro s t h
  have hs := fromUtf8_utf8 s
  rw [h, fromUtf8_utf8] at hs
  exact (Option.some.inj hs).symm

/- Decoded bytes are the bytes of the decoded string. -/
theorem utf8_of_fromUtf8
    {bs : Bytes}
    {s : String}
    (h : fromUtf8 bs = some s) :
    bs = utf8 s := by
  unfold fromUtf8 String.fromUTF8? at h
  by_cases hValid :
      ByteArray.IsValidUTF8 (ByteArray.mk bs.toArray)
  · rw [dif_pos hValid] at h
    have hEq := Option.some.inj h
    subst hEq
    simp [utf8, String.fromUTF8]
  · rw [dif_neg hValid] at h
    cases h

theorem fromUtf8_eq_some_iff
    {bs : Bytes}
    {s : String} :
    fromUtf8 bs = some s ↔ bs = utf8 s := by
  constructor
  · exact utf8_of_fromUtf8
  · rintro rfl
    exact fromUtf8_utf8 s

theorem utf8_ne_nil
    {s : String}
    (hs : s ≠ "") :
    utf8 s ≠ [] := by
  intro hNil
  apply hs
  apply utf8_injective
  rw [hNil]
  simp [utf8]

/- The bytes of a string are those of its characters. -/
theorem utf8_eq_flatMap
    (s : String) :
    utf8 s = s.toList.flatMap String.utf8EncodeChar := by
  unfold utf8
  rw [← String.utf8Encode_toList]
  simp only [List.utf8Encode, List.data_toByteArray]

theorem utf8_suffix
    {s t : String}
    (hSuffix : s.toList <:+ t.toList) :
    utf8 s <:+ utf8 t := by
  rcases hSuffix with ⟨front, hFront⟩
  rw [utf8_eq_flatMap s, utf8_eq_flatMap t, ← hFront,
    List.flatMap_append]
  exact List.suffix_append _ _

/-
  Bytes before a string that end another string are a
  string as well: a valid tail starts between characters.
-/
theorem exists_append_of_utf8_eq
    {w u : String}
    {bs : Bytes}
    (h : utf8 w = bs ++ utf8 u) :
    ∃ s, w = s ++ u ∧ bs = utf8 s := by
  have hSize :
      w.utf8ByteSize = bs.length + u.utf8ByteSize := by
    have hLen := congrArg List.length h
    simpa [utf8] using hLen
  have hTail :
      w.toByteArray.extract bs.length w.utf8ByteSize =
        u.toByteArray := by
    have hDrop := congrArg (List.drop bs.length) h
    rw [List.drop_left] at hDrop
    apply ByteArray.ext
    apply Array.ext'
    simp only [utf8] at hDrop
    simp [hDrop, hSize]
  have hValid : String.Pos.Raw.IsValid w ⟨bs.length⟩ := by
    rw [
      String.Pos.Raw.isValid_iff_isValidUTF8_extract_utf8ByteSize]
    refine ⟨?_, ?_⟩
    · simp [String.Pos.Raw.le_iff, hSize]
    · rw [hTail]
      exact u.isValidUTF8
  rcases String.Pos.Raw.isValid_iff_exists_append.mp
      hValid with ⟨s, t, hSplit, hEnd⟩
  have hLen : bs.length = (utf8 s).length := by
    have hIdx := congrArg String.Pos.Raw.byteIdx hEnd
    simpa [utf8] using hIdx
  rw [hSplit, utf8_append] at h
  have hParts := List.append_inj h hLen.symm
  refine ⟨s, ?_, hParts.1.symm⟩
  rw [hSplit, utf8_injective hParts.2]

theorem utf8_starts
    {s t : String}
    (hPrefix : s.toList <+: t.toList) :
    utf8 s <+: utf8 t := by
  rcases hPrefix with ⟨back, hBack⟩
  rw [utf8_eq_flatMap s, utf8_eq_flatMap t, ← hBack,
    List.flatMap_append]
  exact List.prefix_append _ _

/- A string that begins another one in bytes begins it. -/
theorem exists_append_of_utf8_append
    {w u : String}
    {bs : Bytes}
    (h : utf8 w = utf8 u ++ bs) :
    ∃ s, w = u ++ s ∧ bs = utf8 s := by
  have hSize :
      w.utf8ByteSize = u.utf8ByteSize + bs.length := by
    have hLen := congrArg List.length h
    simpa [utf8] using hLen
  have hHead :
      w.toByteArray.extract 0 u.utf8ByteSize =
        u.toByteArray := by
    have hLength : (utf8 u).length = u.utf8ByteSize := by
      simp [utf8]
    have hTake :=
      congrArg (List.take u.utf8ByteSize) h
    rw [List.take_left' hLength] at hTake
    apply ByteArray.ext
    apply Array.ext'
    simp only [utf8] at hTake
    simp [hTake]
  have hValid :
      String.Pos.Raw.IsValid w ⟨u.utf8ByteSize⟩ := by
    rw [String.Pos.Raw.isValid_iff_isValidUTF8_extract_zero]
    refine ⟨?_, ?_⟩
    · simp [String.Pos.Raw.le_iff, hSize]
    · rw [hHead]
      exact u.isValidUTF8
  rcases String.Pos.Raw.isValid_iff_exists_append.mp
      hValid with ⟨s, t, hSplit, hEnd⟩
  have hLen : (utf8 s).length = (utf8 u).length := by
    have hIdx := congrArg String.Pos.Raw.byteIdx hEnd
    simpa [utf8] using hIdx.symm
  rw [hSplit, utf8_append] at h
  have hParts := List.append_inj h hLen
  refine ⟨t, ?_, hParts.2.symm⟩
  rw [hSplit, utf8_injective hParts.1]

end Text

------------------------------------------------------------
-- Trimming
------------------------------------------------------------

namespace Text

/- The Unicode `White_Space` property. -/
def isWhitespace
    (c : Char) : Bool :=
  let n := c.toNat
  (9 ≤ n && n ≤ 13) || n == 0x20 || n == 0x85 ||
    n == 0xA0 || n == 0x1680 ||
    (0x2000 ≤ n && n ≤ 0x200A) || n == 0x2028 ||
    n == 0x2029 || n == 0x202F || n == 0x205F ||
    n == 0x3000

/- Drop leading and trailing white space. -/
def trim
    (s : String) : String :=
  String.ofList
    ((s.toList.dropWhile isWhitespace).rdropWhile
      isWhitespace)

/- A string of white space only. -/
def isBlank
    (s : String) : Bool :=
  s.toList.all isWhitespace

theorem isBlank_empty :
    isBlank "" = true := by
  simp [isBlank]

/- Blank strings are those that trim to nothing. -/
theorem trim_eq_empty_iff
    (s : String) :
    trim s = "" ↔ isBlank s = true := by
  unfold trim isBlank
  rw [String.ofList_eq_empty_iff,
    List.rdropWhile_eq_nil_iff, List.all_eq_true]
  constructor
  · intro h c hc
    by_cases hDrop :
        c ∈ s.toList.dropWhile isWhitespace
    · exact h c hDrop
    · have hSplit := List.takeWhile_append_dropWhile
        (p := isWhitespace) (l := s.toList)
      rw [← hSplit] at hc
      rcases List.mem_append.mp hc with hTake | hRest
      · exact List.mem_takeWhile_imp hTake
      · exact (hDrop hRest).elim
  · intro h c hc
    exact h c (List.dropWhile_subset _ hc)

/- Leading white space does not change the trimmed text. -/
theorem trim_append_of_isBlank
    {s : String}
    (hs : isBlank s = true)
    (t : String) :
    trim (s ++ t) = trim t := by
  have hAll : ∀ c ∈ s.toList, isWhitespace c = true :=
    List.all_eq_true.mp hs
  unfold trim
  rw [String.toList_append,
    List.dropWhile_append_of_pos hAll]

/- A blank prefix leaves a nonblank text nonblank. -/
theorem isBlank_append
    (s t : String) :
    isBlank (s ++ t) = (isBlank s && isBlank t) := by
  simp [isBlank, String.toList_append]

/-
  A text whose first and last characters are not white
  space is its own trimming.
-/
theorem trim_eq_self
    {s : String}
    {first last : Char}
    (hFirst : s.toList.head? = some first)
    (hLast : s.toList.getLast? = some last)
    (hFirstVisible : isWhitespace first = false)
    (hLastVisible : isWhitespace last = false) :
    trim s = s := by
  have hDrop :
      s.toList.dropWhile isWhitespace = s.toList := by
    cases hChars : s.toList with
    | nil => simp
    | cons c cs =>
        rw [hChars] at hFirst
        have hc : c = first := by simpa using hFirst
        subst hc
        simp [hFirstVisible]
  have hDropRight :
      s.toList.rdropWhile isWhitespace = s.toList := by
    rw [List.rdropWhile_eq_self_iff]
    intro hNe
    have hGet : s.toList.getLast hNe = last := by
      rw [List.getLast?_eq_some_getLast hNe] at hLast
      exact Option.some.inj hLast
    simp [hGet, hLastVisible]
  unfold trim
  rw [hDrop, hDropRight, String.ofList_toList]

/- Trailing white space does not change the trimmed text. -/
theorem trim_append_right_of_isBlank
    {s t : String}
    (ht : isBlank t = true) :
    trim (s ++ t) = trim s := by
  have hAll : ∀ c ∈ t.toList, isWhitespace c = true :=
    List.all_eq_true.mp ht
  have hRight :
      ∀ cs : List Char,
        (cs ++ t.toList).rdropWhile isWhitespace =
          cs.rdropWhile isWhitespace := by
    intro cs
    unfold List.rdropWhile
    rw [List.reverse_append, List.dropWhile_append_of_pos]
    intro c hc
    exact hAll c (List.mem_reverse.mp hc)
  unfold trim
  rw [String.toList_append, List.dropWhile_append]
  by_cases hNil :
      (s.toList.dropWhile isWhitespace).isEmpty = true
  · have hDrop :
        t.toList.dropWhile isWhitespace = [] := by
      simpa [List.dropWhile_eq_nil_iff] using hAll
    have hEmpty : s.toList.dropWhile isWhitespace = [] := by
      simpa using hNil
    rw [if_pos hNil, hDrop, hEmpty]
  · rw [if_neg hNil, hRight]

/- A nonblank text keeps its visible characters. -/
theorem dropWhile_ne_nil_of_not_isBlank
    {s : String}
    (hs : isBlank s = false) :
    s.toList.dropWhile isWhitespace ≠ [] := by
  intro hNil
  rw [List.dropWhile_eq_nil_iff] at hNil
  have hBlank : isBlank s = true :=
    List.all_eq_true.mpr hNil
  simp [hs] at hBlank

/- Trimming a text that ends visibly only drops its start. -/
theorem toList_trim_of_getLast?
    {s : String}
    {last : Char}
    (hLast : s.toList.getLast? = some last)
    (hVisible : isWhitespace last = false) :
    (trim s).toList = s.toList.dropWhile isWhitespace := by
  unfold trim
  rw [String.toList_ofList, List.rdropWhile_eq_self_iff]
  intro hNe
  have hSplit := List.takeWhile_append_dropWhile
    (p := isWhitespace) (l := s.toList)
  rw [← hSplit, List.getLast?_append_of_ne_nil _ hNe,
    List.getLast?_eq_some_getLast hNe] at hLast
  rw [Option.some.inj hLast, hVisible]
  simp

/- What trimming leaves of a text that ends visibly. -/
theorem toList_trim_suffix
    {s : String}
    {last : Char}
    (hLast : s.toList.getLast? = some last)
    (hVisible : isWhitespace last = false) :
    (trim s).toList <:+ s.toList := by
  rw [toList_trim_of_getLast? hLast hVisible]
  exact List.dropWhile_suffix _

/- What trimming leaves of a text that starts visibly. -/
theorem toList_trim_prefix
    {s : String}
    {first : Char}
    (hFirst : s.toList.head? = some first)
    (hVisible : isWhitespace first = false) :
    (trim s).toList <+: s.toList := by
  have hDrop :
      s.toList.dropWhile isWhitespace = s.toList := by
    rcases List.head?_eq_some_iff.mp hFirst with
      ⟨rest, hRest⟩
    rw [hRest, List.dropWhile_cons_of_neg (by simp [hVisible])]
  unfold trim
  rw [String.toList_ofList, hDrop]
  exact List.rdropWhile_prefix _ _

/- What is dropped at the end stands after what is kept. -/
theorem concat_prefix_rdropWhile
    {c : Char}
    (hVisible : isWhitespace c = false)
    (front rest : List Char) :
    front ++ [c] <+:
      (front ++ c :: rest).rdropWhile isWhitespace := by
  induction rest using List.reverseRecOn with
  | nil =>
      rw [List.rdropWhile_concat_neg _ _ _
        (by simp [hVisible])]
  | append_singleton rest d ih =>
      have hConcat :
          front ++ c :: (rest ++ [d]) =
            (front ++ c :: rest) ++ [d] := by
        simp
      rw [hConcat, List.rdropWhile_concat]
      split
      · exact ih
      · rw [List.append_cons front c rest,
          List.append_assoc]
        exact List.prefix_append _ _

/- Trimming a nonblank text followed by a visible end. -/
theorem toList_trim_append
    {s t : String}
    {cs : List Char}
    {last : Char}
    (hs : isBlank s = false)
    (ht : t.toList = cs)
    (hLast : cs.getLast? = some last)
    (hVisible : isWhitespace last = false) :
    (trim (s ++ t)).toList =
      s.toList.dropWhile isWhitespace ++ cs := by
  have hEnd : (s ++ t).toList.getLast? = some last := by
    rw [String.toList_append, ht, List.getLast?_append,
      hLast]
    rfl
  rw [toList_trim_of_getLast? hEnd hVisible,
    String.toList_append, ht, List.dropWhile_append,
    if_neg]
  simpa using dropWhile_ne_nil_of_not_isBlank hs

/- Trimming twice is trimming once. -/
theorem trim_trim
    (s : String) :
    trim (trim s) = trim s := by
  unfold trim
  rw [String.toList_ofList]
  have hStart :
      ((s.toList.dropWhile isWhitespace).rdropWhile
          isWhitespace).dropWhile isWhitespace =
        (s.toList.dropWhile isWhitespace).rdropWhile
          isWhitespace := by
    have hPrefix :=
      List.rdropWhile_prefix isWhitespace
        (s.toList.dropWhile isWhitespace)
    have hIdem :=
      List.dropWhile_idempotent isWhitespace s.toList
    cases hRest :
        (s.toList.dropWhile isWhitespace).rdropWhile
          isWhitespace with
    | nil => rfl
    | cons c cs =>
        rw [hRest] at hPrefix
        rcases hPrefix with ⟨ds, hds⟩
        rw [← hds, List.cons_append] at hIdem
        by_cases hc : isWhitespace c = true
        · have hLen := congrArg List.length hIdem
          rw [List.dropWhile_cons_of_pos hc,
            List.length_cons] at hLen
          have hLe :=
            (List.dropWhile_suffix
              (l := cs ++ ds) isWhitespace).length_le
          omega
        · rw [List.dropWhile_cons_of_neg hc]
  rw [hStart, List.rdropWhile_idempotent]

end Text

------------------------------------------------------------
-- Lines
------------------------------------------------------------

namespace Text

/- The byte that ends a line. -/
def newline : UInt8 :=
  10

/-
  The lines of a file without their newlines. A final
  newline does not start another line.
-/
def lines : Bytes → List Bytes
| [] => []
| b :: bs =>
    if b = newline then
      [] :: lines bs
    else
      match lines bs with
      | [] => [[b]]
      | l :: ls => (b :: l) :: ls

/- The bytes after the last newline. -/
def lastLine
    (bs : Bytes) : Bytes :=
  bs.rtakeWhile (fun b => b ≠ newline)

/- The bytes up to the last newline. -/
def closedPart
    (bs : Bytes) : Bytes :=
  bs.rdropWhile (fun b => b ≠ newline)

theorem closedPart_append_lastLine
    (bs : Bytes) :
    closedPart bs ++ lastLine bs = bs :=
  List.rdropWhile_append_rtakeWhile

theorem newline_notMem_lastLine
    (bs : Bytes) :
    newline ∉ lastLine bs := by
  intro hMem
  have hNe := List.mem_rtakeWhile_imp hMem
  simp at hNe

/- The closed part is empty or ends in a newline. -/
theorem closedPart_cases
    (bs : Bytes) :
    closedPart bs = [] ∨
      ∃ init, closedPart bs = init ++ [newline] := by
  by_cases hNil : closedPart bs = []
  · exact Or.inl hNil
  · right
    have hLast :=
      List.rdropWhile_last_not
        (fun b => decide (b ≠ newline)) bs hNil
    refine ⟨(closedPart bs).dropLast, ?_⟩
    have hGet : (closedPart bs).getLast hNil = newline := by
      simpa [closedPart] using hLast
    rw [← hGet, List.dropLast_append_getLast]

theorem lines_ne_nil
    {bs : Bytes}
    (h : bs ≠ []) :
    lines bs ≠ [] := by
  cases bs with
  | nil => exact (h rfl).elim
  | cons b bs =>
      unfold lines
      by_cases hb : b = newline
      · simp [hb]
      · simp only [hb, if_false]
        cases lines bs <;> simp

/- A newline separates the lines before and after it. -/
theorem lines_append_newline
    (xs ys : Bytes) :
    lines (xs ++ newline :: ys) =
      lines (xs ++ [newline]) ++ lines ys := by
  induction xs with
  | nil => simp [lines]
  | cons b xs ih =>
      simp only [List.cons_append, lines]
      by_cases hb : b = newline
      · simp [hb, ih]
      · simp only [hb, if_false, ih]
        cases hLines : lines (xs ++ [newline]) with
        | nil =>
            exact
              (lines_ne_nil (by simp) hLines).elim
        | cons l ls => simp

/- Bytes without newline form one line. -/
theorem lines_of_notMem
    {bs : Bytes}
    (hNe : bs ≠ [])
    (hNo : newline ∉ bs) :
    lines bs = [bs] := by
  induction bs with
  | nil => exact (hNe rfl).elim
  | cons b bs ih =>
      have hb : b ≠ newline := by
        intro h
        exact hNo (by simp [h])
      have hRest : newline ∉ bs := by
        intro h
        exact hNo (List.mem_cons_of_mem _ h)
      simp only [lines, hb, if_false]
      by_cases hNil : bs = []
      · simp [hNil, lines]
      · rw [ih hNil hRest]

/- The newline byte only comes from the newline character. -/
theorem newline_notMem_utf8
    {s : String}
    (h :
      ∀ c ∈ s.toList, newline ∉ String.utf8EncodeChar c) :
    newline ∉ utf8 s := by
  rw [utf8_eq_flatMap]
  intro hMem
  rcases List.mem_flatMap.mp hMem with ⟨c, hc, hByte⟩
  exact h c hc hByte

/- One line with its newline. -/
theorem lines_closed_line
    {bs : Bytes}
    (hNo : newline ∉ bs) :
    lines (bs ++ [newline]) = [bs] := by
  induction bs with
  | nil => simp [lines]
  | cons b bs ih =>
      have hb : b ≠ newline := by
        intro h
        exact hNo (by simp [h])
      have hRest : newline ∉ bs := by
        intro h
        exact hNo (List.mem_cons_of_mem _ h)
      simp only [List.cons_append, lines, hb, if_false,
        ih hRest]

/- Lines read after the closed part are separate lines. -/
theorem lines_closedPart_append
    (bs ys : Bytes) :
    lines (closedPart bs ++ ys) =
      lines (closedPart bs) ++ lines ys := by
  rcases closedPart_cases bs with hNil | ⟨init, hInit⟩
  · simp [hNil, lines]
  · rw [hInit, List.append_assoc]
    exact lines_append_newline init ys

/- The lines of a file end with its last line, if any. -/
theorem lines_eq_closedPart
    (bs : Bytes) :
    lines bs =
      lines (closedPart bs) ++ lines (lastLine bs) := by
  rw [← lines_closedPart_append,
    closedPart_append_lastLine]

theorem lines_lastLine
    (bs : Bytes) :
    lines (lastLine bs) =
      if lastLine bs = [] then [] else [lastLine bs] := by
  by_cases hNil : lastLine bs = []
  · simp [hNil, lines]
  · rw [if_neg hNil]
    exact lines_of_notMem hNil (newline_notMem_lastLine bs)

/-
  A line appended to a file continues its last line; what
  follows the appended newline is read on its own.
-/
theorem lines_append_line
    (bs : Bytes)
    {text : Bytes}
    (hNo : newline ∉ text)
    (rest : Bytes) :
    lines (bs ++ (text ++ newline :: rest)) =
      lines (closedPart bs) ++
        (lastLine bs ++ text) :: lines rest := by
  have hSplit :
      bs ++ (text ++ newline :: rest) =
        closedPart bs ++
          ((lastLine bs ++ text) ++ newline :: rest) := by
    conv_lhs => rw [← closedPart_append_lastLine bs]
    simp
  have hNoLine : newline ∉ lastLine bs ++ text := by
    intro hMem
    rcases List.mem_append.mp hMem with hLast | hText
    · exact newline_notMem_lastLine bs hLast
    · exact hNo hText
  rw [hSplit, lines_closedPart_append,
    lines_append_newline, lines_closed_line hNoLine]
  rfl

/- Texts that are appended as lines are read as lines. -/
theorem lines_append_texts
    (bs text : Bytes)
    (texts : List Bytes)
    (hNo : ∀ t ∈ text :: texts, newline ∉ t) :
    lines
        (bs ++
          (text :: texts).flatMap fun t => t ++ [newline]) =
      lines (closedPart bs) ++
        (lastLine bs ++ text) :: texts := by
  induction texts generalizing bs text with
  | nil =>
      have hLine :=
        lines_append_line bs
          (hNo text List.mem_cons_self) []
      simpa [lines] using hLine
  | cons next texts ih =>
      have hRest :
          ∀ t ∈ next :: texts, newline ∉ t := by
        intro t hMem
        exact hNo t (List.mem_cons_of_mem _ hMem)
      have hLine :=
        lines_append_line bs
          (hNo text List.mem_cons_self)
          ((next :: texts).flatMap fun t => t ++ [newline])
      have hTail := ih [] next hRest
      simp only [List.nil_append] at hTail
      rw [List.flatMap_cons, List.append_assoc,
        List.singleton_append, hLine, hTail]
      simp [closedPart, lastLine, lines]

end Text

------------------------------------------------------------
-- Lines With Carriage Returns
------------------------------------------------------------

namespace Text

/- Drop a carriage return at the end of a line. -/
def dropCr
    (line : Bytes) : Bytes :=
  if line.getLast? = some 13 then
    line.dropLast
  else
    line

/-
  The lines of a buffered reader: a newline that ends a line
  is dropped, with a carriage return before it.
-/
def bufLines
    (bs : Bytes) : List Bytes :=
  (lines (closedPart bs)).map dropCr ++ lines (lastLine bs)

/- The strings that a buffered reader returns. -/
def readStrings
    (bs : Bytes) : Except String (List String) :=
  (bufLines bs).mapM fun line =>
    match fromUtf8 line with
    | some s => .ok s
    | none => .error "stream did not contain valid UTF-8"

/- The strings read are those whose bytes are the lines. -/
theorem mapM_decode_eq_ok_iff
    {ε : Type}
    {decode : Bytes → Except ε String}
    (hDecode :
      ∀ line s, decode line = .ok s ↔ line = utf8 s)
    (ls : List Bytes)
    (strings : List String) :
    ls.mapM decode = .ok strings ↔
      ls = strings.map utf8 := by
  induction ls generalizing strings with
  | nil =>
      cases strings with
      | nil => simp [pure, Except.pure]
      | cons s ss => simp [pure, Except.pure]
  | cons l ls ih =>
      rw [List.mapM_cons]
      cases hHead : decode l with
      | error e =>
          have hNe : ∀ s : String, l ≠ utf8 s := by
            intro s hl
            rw [(hDecode l s).mpr hl] at hHead
            cases hHead
          cases strings with
          | nil => simp [bind, Except.bind]
          | cons s ss => simp [hNe s, bind, Except.bind]
      | ok s =>
          have hl := (hDecode l s).mp hHead
          cases strings with
          | nil =>
              simp only [bind, Except.bind]
              split <;> simp [pure, Except.pure]
          | cons t ts =>
              have hTail := ih ts
              rw [hl, List.map_cons, List.cons.injEq,
                utf8_injective.eq_iff, ← hTail]
              simp only [bind, Except.bind]
              split
              · rename_i hRest
                simp [hRest]
              · rename_i rest hRest
                simp [hRest, pure, Except.pure]

theorem readStrings_eq_ok_iff
    (bs : Bytes)
    (strings : List String) :
    readStrings bs = .ok strings ↔
      bufLines bs = strings.map utf8 := by
  apply mapM_decode_eq_ok_iff
  intro line s
  rw [← fromUtf8_eq_some_iff]
  cases fromUtf8 line with
  | none => simp
  | some t => simp

/- A text whose last character is not a carriage return. -/
theorem dropCr_append_utf8
    (bs : Bytes)
    {s : String}
    {c : Char}
    (hLast : s.toList.getLast? = some c)
    (hEnd :
      (String.utf8EncodeChar c).getLast? ≠ some 13)
    (hNe : String.utf8EncodeChar c ≠ []) :
    dropCr (bs ++ utf8 s) = bs ++ utf8 s := by
  rcases List.getLast?_eq_some_iff.mp hLast with
    ⟨init, hInit⟩
  have hBytes :
      (bs ++ utf8 s).getLast? =
        (String.utf8EncodeChar c).getLast? := by
    rw [utf8_eq_flatMap, hInit, List.flatMap_append]
    simp only [List.flatMap_cons, List.flatMap_nil,
      List.append_nil]
    rw [← List.append_assoc, List.getLast?_append]
    cases hc : (String.utf8EncodeChar c).getLast? with
    | none => exact (hNe (List.getLast?_eq_none_iff.mp hc)).elim
    | some b => rfl
  unfold dropCr
  rw [hBytes, if_neg hEnd]

theorem lastLine_append_newline
    (bs : Bytes) :
    lastLine (bs ++ [newline]) = [] :=
  List.rtakeWhile_concat_neg _ bs newline (by simp)

theorem closedPart_append_newline
    (bs : Bytes) :
    closedPart (bs ++ [newline]) = bs ++ [newline] := by
  have hSplit := closedPart_append_lastLine (bs ++ [newline])
  rw [lastLine_append_newline, List.append_nil] at hSplit
  exact hSplit

/- The buffered lines after texts are appended as lines. -/
theorem bufLines_append_texts
    (bs text : Bytes)
    (texts : List Bytes)
    (hNo : ∀ t ∈ text :: texts, newline ∉ t) :
    bufLines
        (bs ++
          (text :: texts).flatMap fun t => t ++ [newline]) =
      (lines (closedPart bs)).map dropCr ++
        ((lastLine bs ++ text) :: texts).map dropCr := by
  have hLines := lines_append_texts bs text texts hNo
  rcases List.eq_nil_or_concat' (text :: texts) with
    hNil | ⟨front, last, hConcat⟩
  · cases hNil
  · have hEnd :
        bs ++
            (text :: texts).flatMap (fun t =>
              t ++ [newline]) =
          (bs ++
              (front.flatMap (fun t => t ++ [newline]) ++
                last)) ++ [newline] := by
      rw [hConcat, List.flatMap_append]
      simp
    unfold bufLines
    rw [hEnd, lastLine_append_newline,
      closedPart_append_newline, ← hEnd, hLines]
    simp [lines]

end Text
