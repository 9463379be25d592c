import Kron.Lib.Text

/-
  JSON codecs as parameters.

  A codec turns values into JSON text and back. A parse
  error knows whether the text ended too early. The laws
  say what a program may rely on; `tableCodec` meets them
  and writes chosen texts for chosen values.

  Key definitions include:
    * `JsonError`
    * `JsonCodec`
    * `JsonCodec.fromReader`
    * `JsonCodec.WritesLine`
    * `JsonCodec.ContinuationFails`
    * `JsonCodec.SuffixFails`
    * `JsonCodec.Lossless`
    * `tableCodec`
    * `objectTable`

  Key theorems include:
    * `tableOk_of_bytes`
    * `tableCodec_lossless`
    * `tableCodec_writesLine`
    * `tableCodec_continuationFails`
    * `tableCodec_suffixFails`
-/

------------------------------------------------------------
-- Codecs And Their Laws
------------------------------------------------------------

/- A JSON parse error: its text and its end-of-file flag. -/
structure JsonError where
  message : String
  isEof : Bool
deriving DecidableEq, Repr

/- Compact text, indented text, and parsing. -/
structure JsonCodec (α : Type) where
  toText : α → String
  toTextPretty : α → String
  fromText : String → Except JsonError α

namespace JsonCodec

open Text

variable {α : Type}

/- Parse the contents of a file. -/
def fromReader
    (codec : JsonCodec α)
    (bs : Bytes) : Except JsonError α :=
  match fromUtf8 bs with
  | some s => codec.fromText s
  | none =>
      .error
        { message := "invalid unicode code point"
          isEof := false }

theorem fromReader_utf8
    (codec : JsonCodec α)
    (s : String) :
    codec.fromReader (utf8 s) = codec.fromText s := by
  simp [fromReader]

/- Written values are read back. -/
def Lossless
    (codec : JsonCodec α) : Prop :=
  ∀ a : α, codec.fromText (codec.toText a) = .ok a

/- Indented values with a final newline are read back. -/
def LosslessPretty
    (codec : JsonCodec α) : Prop :=
  ∀ a : α,
    codec.fromText (codec.toTextPretty a ++ "\n") = .ok a

/- The text of a value is one line that holds an object. -/
structure WritesLine
    (codec : JsonCodec α)
    (a : α) : Prop where
  noNewline : newline ∉ utf8 (codec.toText a)
  opens : (codec.toText a).toList.head? = some '\x7b'
  closes : (codec.toText a).toList.getLast? = some '\x7d'
  decodes : codec.fromText (codec.toText a) = .ok a

/- A text that is a value, or ends inside one. -/
def IsComplete
    (codec : JsonCodec α)
    (s : String) : Prop :=
  (∃ a, codec.fromText s = .ok a) ∨
    ∃ e, codec.fromText s = .error e ∧ e.isEof = true

/-
  An object written after a value, or after the beginning
  of one, does not parse together with it.
-/
def ContinuationFails
    (codec : JsonCodec α) : Prop :=
  ∀ (s : String) (a : α),
    isBlank s = false →
      codec.IsComplete (trim s) →
        ∃ e,
          codec.fromText (trim (s ++ codec.toText a)) =
            .error e

/- A written value does not parse without its beginning. -/
def SuffixFails
    (codec : JsonCodec α) : Prop :=
  ∀ (a : α) (s t : String),
    codec.toText a = s ++ t →
      s ≠ "" → t ≠ "" →
        ∃ e, codec.fromText (trim t) = .error e

/- A written value that is cut short ends too early. -/
def PrefixEof
    (codec : JsonCodec α) : Prop :=
  ∀ (a : α) (s t : String),
    codec.toText a = s ++ t → t ≠ "" →
      ∃ e, codec.fromText s = .error e ∧ e.isEof = true

/- A written value does not parse with more text after it. -/
def TrailingFails
    (codec : JsonCodec α) : Prop :=
  ∀ (a : α) (s : String) (c : Char),
    s.toList.head? = some c → isWhitespace c = false →
      ∃ e, codec.fromText (codec.toText a ++ s) = .error e

/- The white space of JSON. -/
def isJsonSpace
    (c : Char) : Bool :=
  c = ' ' || c = '\t' || c = '\n' || c = '\r'

/- A string of JSON white space only. -/
def isJsonBlank
    (s : String) : Bool :=
  s.toList.all isJsonSpace

/- White space before a written value is skipped. -/
def SkipsSpace
    (codec : JsonCodec α) : Prop :=
  ∀ (s : String) (a : α),
    isJsonBlank s = true →
      codec.fromText (s ++ codec.toText a) = .ok a

/-
  Nothing else that a line may end with parses together with
  an object written after it: neither other white space, nor
  a value, nor the beginning of one.
-/
def PrefixFails
    (codec : JsonCodec α) : Prop :=
  ∀ (s : String) (a : α),
    isJsonBlank s = false →
      isBlank s = true ∨ codec.IsComplete s →
        ∃ e, codec.fromText (s ++ codec.toText a) = .error e

variable {codec : JsonCodec α} {a : α}

theorem isBlank_of_isJsonBlank
    {s : String}
    (hBlank : isJsonBlank s = true) :
    isBlank s = true := by
  unfold isJsonBlank at hBlank
  unfold isBlank
  rw [List.all_eq_true] at hBlank ⊢
  intro c hMem
  have hSpace := hBlank c hMem
  simp only [isJsonSpace, Bool.or_eq_true,
    decide_eq_true_eq] at hSpace
  rcases hSpace with ((rfl | rfl) | rfl) | rfl <;> decide

theorem WritesLine.trim_eq
    (h : codec.WritesLine a) :
    trim (codec.toText a) = codec.toText a :=
  trim_eq_self h.opens h.closes (by decide) (by decide)

theorem WritesLine.ne_empty
    (h : codec.WritesLine a) :
    codec.toText a ≠ "" := by
  intro hEmpty
  have hOpens := h.opens
  rw [hEmpty] at hOpens
  simp at hOpens

theorem WritesLine.not_isBlank
    (h : codec.WritesLine a) :
    isBlank (codec.toText a) = false := by
  by_contra hBlank
  have hTrue : isBlank (codec.toText a) = true := by
    simpa using hBlank
  have hEmpty := (trim_eq_empty_iff _).mpr hTrue
  rw [h.trim_eq] at hEmpty
  exact h.ne_empty hEmpty

end JsonCodec

------------------------------------------------------------
-- Decoding Several Values
------------------------------------------------------------

namespace JsonCodec

variable {α : Type}

/- Every text must parse; the last may end too early. -/
def decodeAll
    (codec : JsonCodec α) : List String → Option (List α)
| [] => some []
| t :: ts =>
    match codec.fromText t with
    | .ok a => (codec.decodeAll ts).map (a :: ·)
    | .error e =>
        if ts = [] ∧ e.isEof = true then some [] else none

/- The texts parse to the values, one by one. -/
def Parses
    (codec : JsonCodec α)
    (ts : List String)
    (as : List α) : Prop :=
  List.Forall₂ (fun t a => codec.fromText t = .ok a) ts as

variable {codec : JsonCodec α}

theorem Parses.ok_of_mem
    {ts : List String}
    {as : List α}
    {t : String}
    (hParses : codec.Parses ts as)
    (hMem : t ∈ ts) :
    ∃ a, codec.fromText t = .ok a := by
  induction hParses with
  | nil => cases hMem
  | cons hHead _ ih =>
      rcases List.mem_cons.mp hMem with rfl | hRest
      · exact ⟨_, hHead⟩
      · exact ih hRest

/- The last text parses to the last value. -/
theorem Parses.concat
    {xs : List String}
    {t : String}
    {as : List α}
    (hParses : codec.Parses (xs ++ [t]) as) :
    ∃ bs a,
      as = bs ++ [a] ∧ codec.Parses xs bs ∧
        codec.fromText t = .ok a := by
  induction xs generalizing as with
  | nil =>
      cases hParses with
      | cons hHead hNil =>
          cases hNil
          exact ⟨[], _, rfl, .nil, hHead⟩
  | cons x xs ih =>
      cases hParses with
      | cons hHead hTail =>
          rcases ih hTail with ⟨bs, a, rfl, hInit, hLast⟩
          exact
            ⟨_ :: bs, a, rfl, .cons hHead hInit, hLast⟩

/- Texts that parse may be followed by any others. -/
theorem decodeAll_append
    {xs ys : List String}
    {as : List α}
    (hParses : codec.Parses xs as) :
    codec.decodeAll (xs ++ ys) =
      (codec.decodeAll ys).map (as ++ ·) := by
  induction hParses with
  | nil => simp
  | cons hHead _ ih =>
      rw [List.cons_append, decodeAll, hHead]
      simp only [ih, Option.map_map]
      rfl

theorem decodeAll_of_parses
    {ts : List String}
    {as : List α}
    (hParses : codec.Parses ts as) :
    codec.decodeAll ts = some as := by
  have hAppend :
      codec.decodeAll (ts ++ []) =
        (codec.decodeAll []).map (as ++ ·) :=
    decodeAll_append hParses
  simpa [decodeAll] using hAppend

/- A text that does not parse ends the values, if it may. -/
theorem decodeAll_append_error
    {xs ts : List String}
    {t : String}
    {e : JsonError}
    {as bs : List α}
    (hParses : codec.Parses xs as)
    (hError : codec.fromText t = .error e)
    (hDecode :
      codec.decodeAll (xs ++ t :: ts) = some bs) :
    ts = [] ∧ bs = as := by
  rw [decodeAll_append hParses, decodeAll, hError]
    at hDecode
  simp only at hDecode
  split at hDecode
  · rename_i hEnd
    refine ⟨hEnd.1, ?_⟩
    simpa using hDecode.symm
  · cases hDecode

/- All texts parse, or all but a last one cut short. -/
theorem decodeAll_cases
    {ts : List String}
    {as : List α}
    (hDecode : codec.decodeAll ts = some as) :
    codec.Parses ts as ∨
      ∃ xs t e,
        ts = xs ++ [t] ∧ codec.Parses xs as ∧
          codec.fromText t = .error e ∧ e.isEof = true := by
  induction ts generalizing as with
  | nil =>
      cases hDecode
      exact Or.inl .nil
  | cons t ts ih =>
      simp only [decodeAll] at hDecode
      cases hParse : codec.fromText t with
      | ok a =>
          simp only [hParse] at hDecode
          rcases Option.map_eq_some_iff.mp hDecode with
            ⟨bs, hBs, rfl⟩
          rcases ih hBs with
            hAll | ⟨xs, t', e, hEq, hInit, hErr, hEof⟩
          · exact Or.inl (.cons hParse hAll)
          · right
            refine
              ⟨t :: xs, t', e, ?_, .cons hParse hInit, hErr,
                hEof⟩
            rw [hEq]
            rfl
      | error e =>
          simp only [hParse] at hDecode
          split at hDecode
          · rename_i hEnd
            cases hDecode
            right
            refine ⟨[], t, e, ?_, .nil, hParse, hEnd.2⟩
            rw [hEnd.1]
            rfl
          · cases hDecode

end JsonCodec

------------------------------------------------------------
-- Countable Texts
------------------------------------------------------------

instance countableChar : Countable Char :=
  Function.Injective.countable
    (f := Char.toNat)
    (fun _ _ h => Char.toNat_inj.mp h)

instance countableString : Countable String :=
  Function.Injective.countable
    (f := String.toList)
    (fun _ _ h => String.toList_injective h)

------------------------------------------------------------
-- Table Codecs
------------------------------------------------------------

section TableCodec

open Text

variable {α : Type} [Countable α]

/- The number of a value in some enumeration of the type. -/
noncomputable def valueNumber
    (a : α) : Nat :=
  (exists_injective_nat α).choose a

theorem valueNumber_injective :
    Function.Injective (valueNumber : α → Nat) :=
  (exists_injective_nat α).choose_spec

/- The text of a value that is not in the table. -/
def numberText
    (n : Nat) : List Char :=
  '\x7b' :: (List.replicate (n + 1) '#' ++ ['\x7d'])

variable [DecidableEq α]

/- The text of a value, as characters. -/
noncomputable def tableChars
    (table : List (α × String))
    (a : α) : List Char :=
  match table.find? (fun row => row.1 = a) with
  | some row => row.2.toList
  | none => numberText (valueNumber a)

/-
  Tables of texts that look like one-line objects, without
  the characters of `numberText` and without a text that
  ends in another one.
-/
structure TableOk
    (table : List (α × String)) : Prop where
  shape :
    ∀ row ∈ table,
      row.2.toList.head? = some '\x7b' ∧
        row.2.toList.getLast? = some '\x7d' ∧
          '#' ∉ row.2.toList
  suffixFree :
    ∀ row ∈ table, ∀ row' ∈ table,
      row.2.toList <:+ row'.2.toList → row.1 = row'.1

/- The text of an object with the given members. -/
def braces
    (members : String) : String :=
  "\x7b" ++ members ++ "\x7d"

/- A table of objects, from their members. -/
def objectTable
    (rows : List (α × String)) : List (α × String) :=
  rows.map fun row => (row.1, braces row.2)

/- Neither text ends in the other one. -/
def SuffixFree
    (bs bs' : Bytes) : Prop :=
  ¬ bs <:+ bs' ∧ ¬ bs' <:+ bs

instance : DecidableRel SuffixFree :=
  fun _ _ => inferInstanceAs (Decidable (_ ∧ _))

/- The texts of a table of objects, in bytes. -/
def objectBytes
    (rows : List (α × String)) : List Bytes :=
  rows.map fun row => utf8 (braces row.2)

omit [Countable α] [DecidableEq α] in
theorem braces_shape
    {members : String}
    (hHash : 35 ∉ utf8 (braces members)) :
    (braces members).toList.head? = some '\x7b' ∧
      (braces members).toList.getLast? = some '\x7d' ∧
        '#' ∉ (braces members).toList := by
  have hList :
      (braces members).toList =
        ('\x7b' :: members.toList) ++ ['\x7d'] := by
    simp [braces]
  refine ⟨by simp [hList], ?_, ?_⟩
  · rw [hList, List.getLast?_concat]
  · intro hMem
    apply hHash
    rw [utf8_eq_flatMap]
    exact List.mem_flatMap.mpr ⟨'#', hMem, by decide⟩

omit [Countable α] [DecidableEq α] in
/-
  The conditions on a table, in bytes: bytes evaluate much
  faster than characters.
-/
theorem tableOk_of_bytes
    {rows : List (α × String)}
    (hHash : ∀ bs ∈ objectBytes rows, 35 ∉ bs)
    (hSuffix : (objectBytes rows).Pairwise SuffixFree) :
    TableOk (objectTable rows) := by
  constructor
  · intro row hRow
    rcases List.mem_map.mp hRow with ⟨r, hr, rfl⟩
    exact
      braces_shape
        (hHash _ (List.mem_map.mpr ⟨r, hr, rfl⟩))
  · intro row hRow row' hRow' hChars
    rcases List.mem_map.mp hRow with ⟨r, hr, rfl⟩
    rcases List.mem_map.mp hRow' with ⟨r', hr', rfl⟩
    by_contra hNe
    have hDiffer : r ≠ r' := by
      intro hEq
      exact hNe (by rw [hEq])
    have hSymm :
        Std.Symm fun r r' : α × String =>
          SuffixFree (utf8 (braces r.2))
            (utf8 (braces r'.2)) :=
      ⟨fun _ _ h => ⟨h.2, h.1⟩⟩
    have hFree :=
      (List.pairwise_map.mp hSuffix).forall hr hr' hDiffer
    exact hFree.1 (utf8_suffix hChars)

open Classical in
/-
  Write the texts of the table and numbered objects for the
  other values; read back exactly what is written.
-/
noncomputable def tableCodec
    (table : List (α × String)) : JsonCodec α where
  toText a := String.ofList (tableChars table a)
  toTextPretty a := String.ofList (tableChars table a)
  fromText s :=
    if h : ∃ a, tableChars table a = (trim s).toList then
      .ok h.choose
    else
      .error
        { message := "expected value"
          isEof :=
            decide
              (∃ a, (trim s).toList <+: tableChars table a) }

end TableCodec

------------------------------------------------------------
-- Laws Of Table Codecs
------------------------------------------------------------

section TableCodecLaws

open Text

variable {α : Type} [Countable α] [DecidableEq α]
variable {table : List (α × String)}

/- A value is written from the table or by its number. -/
theorem tableChars_cases
    (table : List (α × String))
    (a : α) :
    (∃ row ∈ table,
        row.1 = a ∧ tableChars table a = row.2.toList) ∨
      tableChars table a = numberText (valueNumber a) := by
  unfold tableChars
  cases hFind : table.find? (fun row => row.1 = a) with
  | none => exact Or.inr rfl
  | some row =>
      left
      refine
        ⟨row, List.mem_of_find?_eq_some hFind, ?_, rfl⟩
      simpa using List.find?_some hFind

theorem numberText_getLast?
    (n : Nat) :
    (numberText n).getLast? = some '\x7d' := by
  unfold numberText
  rw [← List.cons_append, List.getLast?_concat]

theorem tableChars_head?
    (hTable : TableOk table)
    (a : α) :
    (tableChars table a).head? = some '\x7b' := by
  rcases tableChars_cases table a with
    ⟨row, hRow, _, hChars⟩ | hChars
  · rw [hChars]
    exact (hTable.shape row hRow).1
  · rw [hChars]
    rfl

theorem tableChars_getLast?
    (hTable : TableOk table)
    (a : α) :
    (tableChars table a).getLast? = some '\x7d' := by
  rcases tableChars_cases table a with
    ⟨row, hRow, _, hChars⟩ | hChars
  · rw [hChars]
    exact (hTable.shape row hRow).2.1
  · rw [hChars]
    exact numberText_getLast? _

/- An object text that ends a numbered text is all of it. -/
theorem eq_numberText_of_suffix
    {cs : List Char}
    {n : Nat}
    (hOpens : cs.head? = some '\x7b')
    (hSuffix : cs <:+ numberText n) :
    cs = numberText n := by
  rcases List.suffix_cons_iff.mp hSuffix with hEq | hRest
  · exact hEq
  · have hMem : '\x7b' ∈ cs := List.mem_of_head? hOpens
    have hIn := hRest.subset hMem
    simp at hIn

/- No written text ends in the text of another value. -/
theorem eq_of_tableChars_suffix
    (hTable : TableOk table)
    {a b : α}
    (hSuffix : tableChars table a <:+ tableChars table b) :
    a = b := by
  have hOpens := tableChars_head? hTable a
  rcases tableChars_cases table a with
    ⟨row, hRow, hKey, hChars⟩ | hChars <;>
  rcases tableChars_cases table b with
    ⟨row', hRow', hKey', hChars'⟩ | hChars'
  · rw [hChars, hChars'] at hSuffix
    rw [← hKey, ← hKey']
    exact hTable.suffixFree row hRow row' hRow' hSuffix
  · have hHash : '#' ∉ tableChars table a := by
      rw [hChars]
      exact (hTable.shape row hRow).2.2
    rw [hChars'] at hSuffix
    rw [eq_numberText_of_suffix hOpens hSuffix] at hHash
    simp [numberText] at hHash
  · have hHash : '#' ∉ tableChars table b := by
      rw [hChars']
      exact (hTable.shape row' hRow').2.2
    have hMem : '#' ∈ tableChars table a := by
      rw [hChars]
      simp [numberText]
    exact (hHash (hSuffix.subset hMem)).elim
  · rw [hChars'] at hSuffix
    have hEq := eq_numberText_of_suffix hOpens hSuffix
    rw [hChars] at hEq
    have hLen := congrArg List.length hEq
    simp only [numberText, List.length_cons,
      List.length_append, List.length_replicate] at hLen
    apply valueNumber_injective
    omega

theorem trim_tableText
    (hTable : TableOk table)
    (a : α) :
    trim (String.ofList (tableChars table a)) =
      String.ofList (tableChars table a) := by
  have hHead :
      (String.ofList (tableChars table a)).toList.head? =
        some '\x7b' := by
    rw [String.toList_ofList]
    exact tableChars_head? hTable a
  have hLast :
      (String.ofList
        (tableChars table a)).toList.getLast? =
        some '\x7d' := by
    rw [String.toList_ofList]
    exact tableChars_getLast? hTable a
  exact trim_eq_self hHead hLast (by decide) (by decide)

/- Reading a text that trims to a written one. -/
theorem tableCodec_fromText_of_trim
    (hTable : TableOk table)
    {s : String}
    {a : α}
    (hTrim : (trim s).toList = tableChars table a) :
    (tableCodec table).fromText s = .ok a := by
  have hExists :
      ∃ b, tableChars table b = (trim s).toList :=
    ⟨a, hTrim.symm⟩
  have hChoose : hExists.choose = a := by
    apply eq_of_tableChars_suffix hTable
    rw [hExists.choose_spec, hTrim]
  simp only [tableCodec]
  rw [dif_pos hExists, hChoose]

/- Reading a text that trims to no written one. -/
theorem tableCodec_fromText_error
    {s : String}
    (hNone : ∀ a, tableChars table a ≠ (trim s).toList) :
    ∃ e, (tableCodec table).fromText s = .error e := by
  simp only [tableCodec]
  rw [dif_neg (by simpa using hNone)]
  exact ⟨_, rfl⟩

/- Reading a text that ends inside a written one. -/
theorem tableCodec_fromText_eof
    (hTable : TableOk table)
    {s : String}
    {a : α}
    (hPrefix : (trim s).toList <+: tableChars table a)
    (hEnd : (trim s).toList.getLast? ≠ some '\x7d') :
    ∃ e,
      (tableCodec table).fromText s = .error e ∧
        e.isEof = true := by
  have hNone :
      ¬ ∃ b, tableChars table b = (trim s).toList := by
    rintro ⟨b, hb⟩
    apply hEnd
    rw [← hb]
    exact tableChars_getLast? hTable b
  simp only [tableCodec]
  rw [dif_neg hNone]
  refine ⟨_, rfl, ?_⟩
  simpa using ⟨a, hPrefix⟩

theorem tableCodec_lossless
    (hTable : TableOk table) :
    (tableCodec table).Lossless := by
  intro a
  apply tableCodec_fromText_of_trim hTable
  simp only [tableCodec]
  rw [trim_tableText hTable, String.toList_ofList]

theorem tableCodec_losslessPretty
    (hTable : TableOk table) :
    (tableCodec table).LosslessPretty := by
  intro a
  apply tableCodec_fromText_of_trim hTable
  simp only [tableCodec]
  rw [trim_append_right_of_isBlank (by decide),
    trim_tableText hTable, String.toList_ofList]

/- The text of a number has no newline byte. -/
theorem newline_notMem_numberText
    (n : Nat) :
    newline ∉ utf8 (String.ofList (numberText n)) := by
  apply newline_notMem_utf8
  intro c hc
  rw [String.toList_ofList] at hc
  simp only [numberText, List.mem_cons, List.mem_append,
    List.mem_replicate, List.not_mem_nil, or_false] at hc
  rcases hc with rfl | ⟨_, rfl⟩ | rfl <;> decide

theorem tableCodec_writesLine
    (hTable : TableOk table)
    (hLines : ∀ row ∈ table, newline ∉ utf8 row.2)
    (a : α) :
    (tableCodec table).WritesLine a where
  noNewline := by
    simp only [tableCodec]
    rcases tableChars_cases table a with
      ⟨row, hRow, _, hChars⟩ | hChars
    · rw [hChars, String.ofList_toList]
      exact hLines row hRow
    · rw [hChars]
      exact newline_notMem_numberText _
  opens := by
    simp only [tableCodec, String.toList_ofList]
    exact tableChars_head? hTable a
  closes := by
    simp only [tableCodec, String.toList_ofList]
    exact tableChars_getLast? hTable a
  decodes := tableCodec_lossless hTable a

theorem tableCodec_continuationFails
    (hTable : TableOk table) :
    (tableCodec table).ContinuationFails := by
  intro s a hNotBlank _
  apply tableCodec_fromText_error
  intro b hEq
  have hTrimmed :
      (trim (s ++ (tableCodec table).toText a)).toList =
        s.toList.dropWhile isWhitespace ++
          tableChars table a := by
    apply toList_trim_append hNotBlank
    · simp only [tableCodec, String.toList_ofList]
    · exact tableChars_getLast? hTable a
    · decide
  rw [trim_trim, hTrimmed] at hEq
  have hab : a = b := by
    apply eq_of_tableChars_suffix hTable
    rw [hEq]
    exact List.suffix_append _ _
  subst hab
  have hLen := congrArg List.length hEq
  rw [List.length_append] at hLen
  apply dropWhile_ne_nil_of_not_isBlank hNotBlank
  apply List.eq_nil_of_length_eq_zero
  omega

theorem tableCodec_suffixFails
    (hTable : TableOk table) :
    (tableCodec table).SuffixFails := by
  intro a s t hText hs ht
  apply tableCodec_fromText_error
  intro b hEq
  rw [trim_trim] at hEq
  have hSplit : tableChars table a = s.toList ++ t.toList := by
    have hChars := congrArg String.toList hText
    simpa [tableCodec, String.toList_append] using hChars
  have hCloses : t.toList.getLast? = some '\x7d' := by
    have hLast := tableChars_getLast? hTable a
    rw [hSplit, List.getLast?_append] at hLast
    cases hLastT : t.toList.getLast? with
    | none =>
        rw [List.getLast?_eq_none_iff,
          String.toList_eq_nil_iff] at hLastT
        exact (ht hLastT).elim
    | some c =>
        rw [hLastT] at hLast
        simpa using hLast
  have hSuffix : (trim t).toList <:+ t.toList :=
    toList_trim_suffix hCloses (by decide)
  have hba : b = a := by
    apply eq_of_tableChars_suffix hTable
    rw [hEq, hSplit]
    exact hSuffix.trans (List.suffix_append _ _)
  subst hba
  have hLe := hSuffix.length_le
  rw [← hEq, hSplit, List.length_append] at hLe
  apply hs
  apply String.toList_eq_nil_iff.mp
  apply List.eq_nil_of_length_eq_zero
  omega

/- No text of the table begins with another one. -/
def PrefixFreeTable
    (table : List (α × String)) : Prop :=
  ∀ row ∈ table, ∀ row' ∈ table,
    row.2.toList <+: row'.2.toList → row.1 = row'.1

omit [Countable α] [DecidableEq α] in
/- The condition on a table of objects, in bytes. -/
theorem prefixFreeTable_of_bytes
    {rows : List (α × String)}
    (hFree :
      (objectBytes rows).Pairwise fun bs bs' =>
        ¬ bs <+: bs' ∧ ¬ bs' <+: bs) :
    PrefixFreeTable (objectTable rows) := by
  intro row hRow row' hRow' hChars
  rcases List.mem_map.mp hRow with ⟨r, hr, rfl⟩
  rcases List.mem_map.mp hRow' with ⟨r', hr', rfl⟩
  by_contra hNe
  have hDiffer : r ≠ r' := by
    intro hEq
    exact hNe (by rw [hEq])
  have hSymm :
      Std.Symm fun r r' : α × String =>
        ¬ utf8 (braces r.2) <+: utf8 (braces r'.2) ∧
          ¬ utf8 (braces r'.2) <+: utf8 (braces r.2) :=
    ⟨fun _ _ h => ⟨h.2, h.1⟩⟩
  have hBoth :=
    (List.pairwise_map.mp hFree).forall hr hr' hDiffer
  exact hBoth.1 (utf8_starts hChars)

/- A closed text that begins a numbered text is all of it. -/
theorem eq_numberText_of_starts
    {cs : List Char}
    {n : Nat}
    (hCloses : cs.getLast? = some '\x7d')
    (hPrefix : cs <+: numberText n) :
    cs = numberText n := by
  unfold numberText at hPrefix ⊢
  rw [← List.cons_append] at hPrefix ⊢
  rcases List.prefix_concat_iff.mp hPrefix with hEq | hRest
  · exact hEq
  · have hMem : '\x7d' ∈ cs := List.mem_of_getLast? hCloses
    have hIn := hRest.subset hMem
    simp at hIn

/- No written text begins with the text of another value. -/
theorem eq_of_tableChars_prefix
    (hTable : TableOk table)
    (hFree : PrefixFreeTable table)
    {a b : α}
    (hPrefix : tableChars table a <+: tableChars table b) :
    a = b := by
  have hCloses := tableChars_getLast? hTable a
  rcases tableChars_cases table a with
    ⟨row, hRow, hKey, hChars⟩ | hChars <;>
  rcases tableChars_cases table b with
    ⟨row', hRow', hKey', hChars'⟩ | hChars'
  · rw [hChars, hChars'] at hPrefix
    rw [← hKey, ← hKey']
    exact hFree row hRow row' hRow' hPrefix
  · have hHash : '#' ∉ tableChars table a := by
      rw [hChars]
      exact (hTable.shape row hRow).2.2
    rw [hChars'] at hPrefix
    rw [eq_numberText_of_starts hCloses hPrefix] at hHash
    simp [numberText] at hHash
  · have hHash : '#' ∉ tableChars table b := by
      rw [hChars']
      exact (hTable.shape row' hRow').2.2
    have hMem : '#' ∈ tableChars table a := by
      rw [hChars]
      simp [numberText]
    exact (hHash (hPrefix.subset hMem)).elim
  · rw [hChars'] at hPrefix
    have hEq := eq_numberText_of_starts hCloses hPrefix
    rw [hChars] at hEq
    have hLen := congrArg List.length hEq
    simp only [numberText, List.length_cons,
      List.length_append, List.length_replicate] at hLen
    apply valueNumber_injective
    omega

theorem tableCodec_prefixEof
    (hTable : TableOk table)
    (hFree : PrefixFreeTable table) :
    (tableCodec table).PrefixEof := by
  intro a s t hText ht
  have hSplit :
      tableChars table a = s.toList ++ t.toList := by
    have hChars := congrArg String.toList hText
    simpa [tableCodec, String.toList_append] using hChars
  have hTrim : (trim s).toList <+: s.toList := by
    by_cases hs : s = ""
    · subst hs
      have hEmpty : trim "" = "" := by decide
      rw [hEmpty]
    · have hHead := tableChars_head? hTable a
      have hNe : s.toList ≠ [] := by
        simpa using hs
      rw [hSplit, List.head?_append_of_ne_nil _ hNe]
        at hHead
      exact toList_trim_prefix hHead (by decide)
  have hPrefix :
      (trim s).toList <+: tableChars table a := by
    rw [hSplit]
    exact hTrim.trans (List.prefix_append _ _)
  have hNone :
      ¬ ∃ b, tableChars table b = (trim s).toList := by
    rintro ⟨b, hb⟩
    have hba : b = a := by
      apply eq_of_tableChars_prefix hTable hFree
      rw [hb]
      exact hPrefix
    subst hba
    have hLe := hTrim.length_le
    rw [← hb, hSplit, List.length_append] at hLe
    apply ht
    apply String.toList_eq_nil_iff.mp
    apply List.eq_nil_of_length_eq_zero
    omega
  simp only [tableCodec]
  rw [dif_neg hNone]
  refine ⟨_, rfl, ?_⟩
  simpa using ⟨a, hPrefix⟩

theorem tableCodec_trailingFails
    (hTable : TableOk table)
    (hFree : PrefixFreeTable table) :
    (tableCodec table).TrailingFails := by
  intro a s c hHead hVisible
  apply tableCodec_fromText_error
  intro b hEq
  rcases List.head?_eq_some_iff.mp hHead with
    ⟨rest, hRest⟩
  have hDrop :
      ((tableCodec table).toText a ++
          s).toList.dropWhile isWhitespace =
        tableChars table a ++ c :: rest := by
    rcases List.head?_eq_some_iff.mp
        (tableChars_head? hTable a) with ⟨cs, hcs⟩
    simp only [tableCodec, String.toList_append,
      String.toList_ofList, hcs, hRest, List.cons_append]
    rw [List.dropWhile_cons_of_neg (by decide)]
  have hKeeps :
      tableChars table a ++ [c] <+: tableChars table b := by
    rw [hEq]
    unfold trim
    rw [String.toList_ofList, hDrop]
    exact concat_prefix_rdropWhile hVisible _ _
  have hab : a = b := by
    apply eq_of_tableChars_prefix hTable hFree
    exact (List.prefix_append _ _).trans hKeeps
  subst hab
  have hLe := hKeeps.length_le
  rw [List.length_append, List.length_singleton] at hLe
  omega

end TableCodecLaws

------------------------------------------------------------
-- Strict Codecs
------------------------------------------------------------

section StrictCodec

open Text
open JsonCodec

variable {α : Type}

/- White space at the ends of a text is that of JSON. -/
def edgesOk
    (s : String) : Bool :=
  (s.toList.takeWhile isWhitespace).all isJsonSpace &&
    (s.toList.rtakeWhile isWhitespace).all isJsonSpace

/- A codec that accepts no other white space around values. -/
def strictCodec
    (codec : JsonCodec α) : JsonCodec α where
  toText := codec.toText
  toTextPretty := codec.toTextPretty
  fromText s :=
    if edgesOk s then
      codec.fromText s
    else
      .error
        { message := "expected value"
          isEof := false }

/- The space before an object is all that may fail. -/
theorem edgesOk_append
    {s t : String}
    {c d : Char}
    (hBlank : isBlank s = true)
    (hOpens : t.toList.head? = some c)
    (hCloses : t.toList.getLast? = some d)
    (hc : isWhitespace c = false)
    (hd : isWhitespace d = false) :
    edgesOk (s ++ t) = isJsonBlank s := by
  rcases List.head?_eq_some_iff.mp hOpens with
    ⟨tail, hTail⟩
  rcases List.getLast?_eq_some_iff.mp hCloses with
    ⟨init, hInit⟩
  have hAll : ∀ x ∈ s.toList, isWhitespace x = true :=
    List.all_eq_true.mp hBlank
  have hLeft :
      (s ++ t).toList.takeWhile isWhitespace =
        s.toList := by
    rw [String.toList_append, hTail,
      List.takeWhile_append_of_pos hAll,
      List.takeWhile_cons_of_neg (by simp [hc]),
      List.append_nil]
  have hRight :
      (s ++ t).toList.rtakeWhile isWhitespace = [] := by
    rw [String.toList_append, hInit, ← List.append_assoc]
    exact List.rtakeWhile_concat_neg _ _ _ (by simp [hd])
  unfold edgesOk isJsonBlank
  rw [hLeft, hRight]
  simp

variable {codec : JsonCodec α}

theorem strictCodec_writesLine
    {a : α}
    (hWrites : codec.WritesLine a) :
    (strictCodec codec).WritesLine a where
  noNewline := hWrites.noNewline
  opens := hWrites.opens
  closes := hWrites.closes
  decodes := by
    have hEdges :
        edgesOk ("" ++ codec.toText a) =
          isJsonBlank "" :=
      edgesOk_append isBlank_empty hWrites.opens
        hWrites.closes (by decide) (by decide)
    simp only [String.empty_append] at hEdges
    simp only [strictCodec]
    rw [hEdges, if_pos (by decide)]
    exact hWrites.decodes

variable [Countable α] [DecidableEq α]
variable {table : List (α × String)}

/- A table codec reads a text as it reads its trimmed form. -/
theorem tableCodec_fromText_trim
    (s : String) :
    (tableCodec table).fromText (trim s) =
      (tableCodec table).fromText s := by
  have hTrim := trim_trim s
  simp only [tableCodec]
  generalize trim (trim s) = t at hTrim ⊢
  rw [hTrim]

/- White space before the text of a table. -/
theorem edgesOk_append_toText
    (hTable : TableOk table)
    {s : String}
    (hBlank : isBlank s = true)
    (a : α) :
    edgesOk (s ++ (tableCodec table).toText a) =
      isJsonBlank s := by
  have hOpens :
      ((tableCodec table).toText a).toList.head? =
        some '\x7b' := by
    simp only [tableCodec, String.toList_ofList]
    exact tableChars_head? hTable a
  have hCloses :
      ((tableCodec table).toText a).toList.getLast? =
        some '\x7d' := by
    simp only [tableCodec, String.toList_ofList]
    exact tableChars_getLast? hTable a
  exact
    edgesOk_append hBlank hOpens hCloses (by decide)
      (by decide)

theorem strictCodec_skipsSpace
    (hTable : TableOk table) :
    (strictCodec (tableCodec table)).SkipsSpace := by
  intro s a hSpace
  have hBlank := isBlank_of_isJsonBlank hSpace
  have hEdges :
      edgesOk (s ++ (tableCodec table).toText a) = true := by
    rw [edgesOk_append_toText hTable hBlank]
    exact hSpace
  simp only [strictCodec]
  rw [if_pos hEdges]
  apply tableCodec_fromText_of_trim hTable
  rw [trim_append_of_isBlank hBlank]
  simp only [tableCodec]
  rw [trim_tableText hTable, String.toList_ofList]

theorem strictCodec_prefixFails
    (hTable : TableOk table) :
    (strictCodec (tableCodec table)).PrefixFails := by
  intro s a hNotSpace hEnd
  by_cases hBlank : isBlank s = true
  · -- white space that JSON does not know
    have hEdges :
        edgesOk (s ++ (tableCodec table).toText a) =
          false := by
      rw [edgesOk_append_toText hTable hBlank]
      exact hNotSpace
    simp only [strictCodec]
    rw [if_neg (by simp [hEdges])]
    exact ⟨_, rfl⟩
  · simp only [strictCodec]
    split
    · have hComplete :
          (tableCodec table).IsComplete (trim s) := by
        rcases hEnd with hBlank' | hOk | ⟨e, hErr, hEof⟩
        · exact (hBlank hBlank').elim
        · rcases hOk with ⟨b, hOk⟩
          simp only [strictCodec] at hOk
          split at hOk
          · left
            refine ⟨b, ?_⟩
            rw [tableCodec_fromText_trim]
            exact hOk
          · cases hOk
        · simp only [strictCodec] at hErr
          split at hErr
          · right
            refine ⟨e, ?_, hEof⟩
            rw [tableCodec_fromText_trim]
            exact hErr
          · cases hErr
            cases hEof
      rcases tableCodec_continuationFails hTable s a
          (by simpa using hBlank) hComplete with ⟨e, hErr⟩
      rw [tableCodec_fromText_trim] at hErr
      exact ⟨e, hErr⟩
    · exact ⟨_, rfl⟩

end StrictCodec

------------------------------------------------------------
-- Values That May Be Absent
------------------------------------------------------------

section OptionCodec

open Text
open JsonCodec

variable {α : Type}

/- An absent value is written as `null`. -/
def optionCodec
    (codec : JsonCodec α) : JsonCodec (Option α) where
  toText
  | none => "null"
  | some a => codec.toText a
  toTextPretty
  | none => "null"
  | some a => codec.toTextPretty a
  fromText s :=
    if trim s = "null" then
      .ok none
    else
      (codec.fromText s).map some

theorem optionCodec_losslessPretty
    [Countable α] [DecidableEq α]
    {table : List (α × String)}
    (hTable : TableOk table) :
    (optionCodec (tableCodec table)).LosslessPretty := by
  intro value
  cases value with
  | none =>
      have hTrim : trim ("null" ++ "\n") = "null" := by
        decide +kernel
      simp only [optionCodec]
      rw [if_pos hTrim]
  | some a =>
      have hTrim :
          trim
              ((tableCodec table).toTextPretty a ++ "\n") ≠
            "null" := by
        intro hEq
        rw [trim_append_right_of_isBlank (by decide)] at hEq
        simp only [tableCodec] at hEq
        rw [trim_tableText hTable] at hEq
        have hHead := tableChars_head? hTable a
        have hChars := congrArg String.toList hEq
        rw [String.toList_ofList] at hChars
        rw [hChars] at hHead
        revert hHead
        decide
      have hRead :=
        tableCodec_losslessPretty hTable a
      simp only [optionCodec]
      rw [if_neg hTrim, hRead]
      rfl

end OptionCodec
