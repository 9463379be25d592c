import Kron.Lib.Digits

/-
  The JSON text of strings and numbers.

  A quoted string ends at its first quote that is not
  escaped. A text that starts with a quoted string therefore
  determines the string and what follows it.

  Key definitions include:
    * `JsonText.escapeChar`
    * `JsonText.quote`
    * `JsonText.quoteOption`
    * `JsonText.object`

  Key theorems include:
    * `JsonText.escapeChar_append_inj`
    * `JsonText.quote_append_inj`
    * `JsonText.quoteOption_append_inj`
    * `JsonText.repr_append_inj`
    * `JsonText.newline_notMem_object`
-/

------------------------------------------------------------
-- Escaped Characters
------------------------------------------------------------

namespace JsonText

open Digits

/-
  The text of a character inside a string. Control characters
  without a letter of their own are written in hexadecimal.
-/
def escapeChar
    (c : Char) : List Char :=
  if c = '"' then
    ['\\', '"']
  else if c = '\\' then
    ['\\', '\\']
  else if c = '\x08' then
    ['\\', 'b']
  else if c = '\x0c' then
    ['\\', 'f']
  else if c = '\n' then
    ['\\', 'n']
  else if c = '\r' then
    ['\\', 'r']
  else if c = '\t' then
    ['\\', 't']
  else if c.toNat < 32 then
    ['\\', 'u', '0', '0'] ++ hex 2 c.toNat
  else
    [c]

/- The codes of characters not written as they are. -/
def escaped : List Nat :=
  34 :: 92 :: List.range 32

theorem escapeChar_of_notMem
    {c : Char}
    (hPlain : c.toNat ∉ escaped) :
    escapeChar c = [c] := by
  have hHigh : ¬ c.toNat < 32 := by
    intro hLow
    apply hPlain
    exact
      List.mem_cons_of_mem _
        (List.mem_cons_of_mem _ (List.mem_range.mpr hLow))
  have hOther :
      ∀ d : Char, d.toNat ∈ escaped → c ≠ d := by
    rintro d hMem rfl
    exact hPlain hMem
  unfold escapeChar
  rw [if_neg (hOther _ (by decide)),
    if_neg (hOther _ (by decide)),
    if_neg (hOther _ (by decide)),
    if_neg (hOther _ (by decide)),
    if_neg (hOther _ (by decide)),
    if_neg (hOther _ (by decide)),
    if_neg (hOther _ (by decide)), if_neg hHigh]

/- Escape sequences begin with a backslash and go on. -/
theorem escapeChar_of_mem
    {c : Char}
    (hc : c.toNat ∈ escaped) :
    (escapeChar c).head? = some '\\' ∧
      2 ≤ (escapeChar c).length := by
  have hAll :
      ∀ n ∈ escaped,
        (escapeChar (Char.ofNat n)).head? = some '\\' ∧
          2 ≤ (escapeChar (Char.ofNat n)).length := by
    decide +kernel
  rw [← Char.ofNat_toNat c]
  exact hAll _ hc

/- No escape sequence begins with another one. -/
theorem eq_of_escapeChar_starts_of_mem
    {c d : Char}
    (hc : c.toNat ∈ escaped)
    (hd : d.toNat ∈ escaped)
    (hPrefix : escapeChar c <+: escapeChar d) :
    c = d := by
  have hAll :
      ∀ n ∈ escaped, ∀ m ∈ escaped,
        escapeChar (Char.ofNat n) <+:
            escapeChar (Char.ofNat m) →
          n = m := by
    decide +kernel
  rw [← Char.ofNat_toNat c, ← Char.ofNat_toNat d]
    at hPrefix
  exact Char.toNat_inj.mp (hAll _ hc _ hd hPrefix)

theorem eq_of_escapeChar_starts
    {c d : Char}
    (hPrefix : escapeChar c <+: escapeChar d) :
    c = d := by
  by_cases hc : c.toNat ∈ escaped
  · by_cases hd : d.toNat ∈ escaped
    · exact eq_of_escapeChar_starts_of_mem hc hd hPrefix
    · rw [escapeChar_of_notMem hd] at hPrefix
      have hLength := hPrefix.length_le
      have hLong := (escapeChar_of_mem hc).2
      rw [List.length_singleton] at hLength
      omega
  · rw [escapeChar_of_notMem hc] at hPrefix
    by_cases hd : d.toNat ∈ escaped
    · rcases List.head?_eq_some_iff.mp
          (escapeChar_of_mem hd).1 with ⟨rest, hRest⟩
      rw [hRest, List.cons_prefix_cons] at hPrefix
      exfalso
      apply hc
      rw [hPrefix.1]
      decide
    · rw [escapeChar_of_notMem hd,
        List.cons_prefix_cons] at hPrefix
      exact hPrefix.1

/- A text that starts with a character determines it. -/
theorem escapeChar_append_inj
    {c d : Char}
    {xs ys : List Char}
    (hEq : escapeChar c ++ xs = escapeChar d ++ ys) :
    c = d ∧ xs = ys := by
  have hLeft : escapeChar c <+: escapeChar d ++ ys := by
    rw [← hEq]
    exact List.prefix_append _ _
  have hSame : c = d := by
    rcases List.prefix_or_prefix_of_prefix hLeft
        (List.prefix_append _ _) with hPrefix | hPrefix
    · exact eq_of_escapeChar_starts hPrefix
    · exact (eq_of_escapeChar_starts hPrefix).symm
  subst hSame
  exact ⟨rfl, List.append_cancel_left hEq⟩

/- No character begins with a quote. -/
theorem head?_escapeChar_ne
    (c : Char) :
    (escapeChar c).head? ≠ some '"' := by
  by_cases hc : c.toNat ∈ escaped
  · rw [(escapeChar_of_mem hc).1]
    decide
  · rw [escapeChar_of_notMem hc]
    intro hEq
    apply hc
    rw [Option.some.inj hEq]
    decide

theorem escapeChar_ne_nil
    (c : Char) :
    escapeChar c ≠ [] := by
  by_cases hc : c.toNat ∈ escaped
  · intro hNil
    have hLong := (escapeChar_of_mem hc).2
    rw [hNil, List.length_nil] at hLong
    omega
  · rw [escapeChar_of_notMem hc]
    exact List.cons_ne_nil _ _

end JsonText

------------------------------------------------------------
-- Values
------------------------------------------------------------

namespace JsonText

/- The text of a string. -/
def quote
    (s : String) : String :=
  String.ofList
    ('"' :: (s.toList.flatMap escapeChar ++ ['"']))

/- The text of a string that may be absent. -/
def quoteOption : Option String → String
| none => "null"
| some s => quote s

/- The text of an object of members and their texts. -/
def object
    (members : List (String × String)) : String :=
  let texts :=
    members.map fun m => quote m.1 ++ ":" ++ m.2
  "\x7b" ++ ",".intercalate texts ++ "\x7d"

/- The characters before the closing quote are determined. -/
theorem flatMap_escapeChar_inj
    {cs ds xs ys : List Char}
    (hEq :
      cs.flatMap escapeChar ++ '"' :: xs =
        ds.flatMap escapeChar ++ '"' :: ys) :
    cs = ds ∧ xs = ys := by
  have hNever :
      ∀ (d : Char) (rest rest' : List Char),
        '"' :: rest ≠ escapeChar d ++ rest' := by
    intro d rest rest' hBad
    apply head?_escapeChar_ne d
    have hHead := congrArg List.head? hBad
    rw [List.head?_append_of_ne_nil _
      (escapeChar_ne_nil d)] at hHead
    exact hHead.symm
  induction cs generalizing ds with
  | nil =>
      cases ds with
      | nil =>
          refine ⟨rfl, ?_⟩
          simpa using hEq
      | cons d ds =>
          rw [List.flatMap_cons, List.append_assoc] at hEq
          exact (hNever _ _ _ hEq).elim
  | cons c cs ih =>
      cases ds with
      | nil =>
          rw [List.flatMap_cons, List.append_assoc] at hEq
          exact (hNever _ _ _ hEq.symm).elim
      | cons d ds =>
          rw [List.flatMap_cons, List.flatMap_cons,
            List.append_assoc, List.append_assoc] at hEq
          rcases escapeChar_append_inj hEq with
            ⟨hHead, hTail⟩
          rcases ih hTail with ⟨hRest, hEnd⟩
          exact ⟨by rw [hHead, hRest], hEnd⟩

/- A text that starts with a quoted string determines it. -/
theorem quote_append_inj
    {s t x y : String}
    (hEq : quote s ++ x = quote t ++ y) :
    s = t ∧ x = y := by
  have hChars := congrArg String.toList hEq
  simp only [quote, String.toList_append,
    String.toList_ofList, List.cons_append,
    List.append_assoc, List.nil_append] at hChars
  have hTail := (List.cons.inj hChars).2
  rcases flatMap_escapeChar_inj hTail with ⟨hs, hx⟩
  exact
    ⟨String.toList_injective hs,
      String.toList_injective hx⟩

theorem quoteOption_append_inj
    {s t : Option String}
    {x y : String}
    (hEq : quoteOption s ++ x = quoteOption t ++ y) :
    s = t ∧ x = y := by
  have hNull :
      ∀ (s x y : String), "null" ++ x ≠ quote s ++ y := by
    intro s x y hBad
    have hChars := congrArg String.toList hBad
    simp [quote] at hChars
  cases s with
  | none =>
      cases t with
      | none =>
          exact ⟨rfl, String.append_right_inj _ |>.mp hEq⟩
      | some t => exact (hNull _ _ _ hEq).elim
  | some s =>
      cases t with
      | none => exact (hNull _ _ _ hEq.symm).elim
      | some t =>
          rcases quote_append_inj hEq with ⟨hs, hx⟩
          exact ⟨by rw [hs], hx⟩

/- Two lists that go on with a separator. -/
theorem append_separator_inj
    {c : Char}
    {cs ds xs ys : List Char}
    (hcs : c ∉ cs)
    (hds : c ∉ ds)
    (hEq : cs ++ c :: xs = ds ++ c :: ys) :
    cs = ds ∧ xs = ys := by
  have hTake :
      ∀ l rest : List Char, c ∉ l →
        (l ++ c :: rest).takeWhile (fun d => d ≠ c) =
          l := by
    intro l rest hl
    rw [List.takeWhile_append_of_pos]
    · simp
    · intro d hd
      simp only [decide_eq_true_eq]
      rintro rfl
      exact hl hd
  have hSame : cs = ds := by
    rw [← hTake cs xs hcs, hEq, hTake ds ys hds]
  subst hSame
  have hTail := List.append_cancel_left hEq
  exact ⟨rfl, (List.cons.inj hTail).2⟩

/- A text that starts with a number and a comma. -/
theorem repr_append_inj
    {n m : Nat}
    {x y : String}
    (hEq :
      Nat.repr n ++ ("," ++ x) = Nat.repr m ++ ("," ++ y)) :
    n = m ∧ x = y := by
  have hDigits :
      ∀ k : Nat, ',' ∉ (Nat.repr k).toList := by
    intro k hMem
    rw [Nat.toList_repr] at hMem
    have hDigit :=
      Nat.isDigit_of_mem_toDigits (by decide) (by decide)
        hMem
    revert hDigit
    decide
  have hChars := congrArg String.toList hEq
  simp only [String.toList_append] at hChars
  rcases append_separator_inj (hDigits n) (hDigits m)
      hChars with ⟨hn, hx⟩
  exact
    ⟨Nat.repr_injective (String.toList_injective hn),
      String.toList_injective hx⟩

end JsonText

------------------------------------------------------------
-- Texts On One Line
------------------------------------------------------------

namespace JsonText

theorem newline_notMem_escapeChar
    (c : Char) :
    '\n' ∉ escapeChar c := by
  by_cases hc : c.toNat ∈ escaped
  · have hAll :
        ∀ n ∈ escaped, '\n' ∉ escapeChar (Char.ofNat n) := by
      decide +kernel
    rw [← Char.ofNat_toNat c]
    exact hAll _ hc
  · rw [escapeChar_of_notMem hc]
    intro hMem
    rw [List.mem_singleton] at hMem
    rw [← hMem] at hc
    exact hc (by decide)

@[simp] theorem newline_notMem_quote
    (s : String) :
    '\n' ∉ (quote s).toList := by
  simp [quote, newline_notMem_escapeChar]

@[simp] theorem newline_notMem_toDigits
    (n : Nat) :
    '\n' ∉ Nat.toDigits 10 n := by
  intro hMem
  have hDigit :=
    Nat.isDigit_of_mem_toDigits (by decide) (by decide) hMem
  revert hDigit
  decide

theorem mem_intercalate
    {c : Char}
    {sep : List Char} :
    ∀ {texts : List (List Char)},
      c ∈ sep.intercalate texts →
        c ∈ sep ∨ ∃ cs ∈ texts, c ∈ cs
| [], hMem => by cases hMem
| [cs], hMem => by
    rw [List.intercalate_singleton] at hMem
    exact Or.inr ⟨cs, List.mem_singleton_self cs, hMem⟩
| cs :: ds :: rest, hMem => by
    rw [List.intercalate_cons_cons, List.mem_append,
      List.mem_append] at hMem
    rcases hMem with (hFirst | hSep) | hRest
    · exact Or.inr ⟨cs, List.mem_cons_self, hFirst⟩
    · exact Or.inl hSep
    · rcases mem_intercalate hRest with
        hSep | ⟨es, hes, hIn⟩
      · exact Or.inl hSep
      · exact Or.inr ⟨es, List.mem_cons_of_mem _ hes, hIn⟩

/- An object is on one line when its members are. -/
theorem newline_notMem_object
    {members : List (String × String)}
    (hMembers : ∀ m ∈ members, '\n' ∉ m.2.toList) :
    '\n' ∉ (object members).toList := by
  intro hMem
  simp only [object, String.toList_append,
    String.toList_intercalate, List.map_map,
    List.mem_append] at hMem
  rcases hMem with (hOpen | hInner) | hClose
  · revert hOpen
    decide
  · rcases mem_intercalate hInner with
      hComma | ⟨cs, hcs, hIn⟩
    · revert hComma
      decide
    · rcases List.mem_map.mp hcs with ⟨m, hm, rfl⟩
      simp only [Function.comp_apply, String.toList_append,
        List.mem_append] at hIn
      rcases hIn with (hKey | hColon) | hValue
      · exact newline_notMem_quote _ hKey
      · revert hColon
        decide
      · exact hMembers m hm hValue
  · revert hClose
    decide

end JsonText
