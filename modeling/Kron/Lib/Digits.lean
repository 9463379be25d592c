import Kron.Lib.Text

/-
  Numbers in a fixed number of digits.

  A number is written with its lowest digit first, as the
  bytes of a machine word are, or with its highest digit
  first, as in a padded hexadecimal numeral.

  Key definitions include:
    * `Digits.digits`
    * `Digits.leBytes`
    * `Digits.leValue`
    * `Digits.hex`
    * `Digits.hexValue`
    * `Digits.readHex`

  Key theorems include:
    * `Digits.digits_injOn`
    * `Digits.leValue_leBytes`
    * `Digits.leValue_inj`
    * `Digits.hex_injOn`
    * `Digits.readHex_eq_some_iff`
-/

------------------------------------------------------------
-- Digits In A Base
------------------------------------------------------------

namespace Digits

/- The lowest `width` digits, lowest digit first. -/
def digits
    (b : Nat) :
    Nat → Nat → List Nat
| 0, _ => []
| width + 1, n => n % b :: digits b width (n / b)

@[simp] theorem length_digits
    (b width n : Nat) :
    (digits b width n).length = width := by
  induction width generalizing n with
  | zero => rfl
  | succ width ih => simp [digits, ih]

theorem lt_of_mem_digits
    {b width n d : Nat}
    (hBase : 0 < b)
    (hMem : d ∈ digits b width n) :
    d < b := by
  induction width generalizing n with
  | zero => cases hMem
  | succ width ih =>
      rcases List.mem_cons.mp hMem with rfl | hRest
      · exact Nat.mod_lt n hBase
      · exact ih hRest

/- The digits give back a number that fits in them. -/
theorem ofDigits_digits
    {b width n : Nat}
    (hLt : n < b ^ width) :
    Nat.ofDigits b (digits b width n) = n := by
  induction width generalizing n with
  | zero =>
      have hZero : n = 0 := by simpa using hLt
      simp [digits, hZero]
  | succ width ih =>
      have hDiv : n / b < b ^ width := by
        apply Nat.div_lt_of_lt_mul
        rw [← Nat.pow_succ']
        exact hLt
      rw [digits, Nat.ofDigits_cons, ih hDiv]
      exact Nat.mod_add_div n b

theorem digits_injOn
    {b width m n : Nat}
    (hm : m < b ^ width)
    (hn : n < b ^ width)
    (hEq : digits b width m = digits b width n) :
    m = n := by
  rw [← ofDigits_digits hm, ← ofDigits_digits hn, hEq]

end Digits

------------------------------------------------------------
-- Bytes And Numerals
------------------------------------------------------------

namespace Digits

/- The bytes of a machine word, lowest byte first. -/
def leBytes
    (width n : Nat) : Bytes :=
  (digits 256 width n).map UInt8.ofNat

/- The number that such bytes hold. -/
def leValue
    (bytes : Bytes) : Nat :=
  Nat.ofDigits 256 (bytes.map UInt8.toNat)

/- A hexadecimal numeral padded with zeros. -/
def hex
    (width n : Nat) : List Char :=
  ((digits 16 width n).map Nat.digitChar).reverse

@[simp] theorem length_leBytes
    (width n : Nat) :
    (leBytes width n).length = width := by
  simp [leBytes]

@[simp] theorem length_hex
    (width n : Nat) :
    (hex width n).length = width := by
  simp [hex]

theorem exists_of_mem_hex
    {width n : Nat}
    {c : Char}
    (hMem : c ∈ hex width n) :
    ∃ d, d < 16 ∧ c = d.digitChar := by
  rcases List.mem_map.mp (List.mem_reverse.mp hMem) with
    ⟨d, hDigit, rfl⟩
  exact ⟨d, lt_of_mem_digits (by decide) hDigit, rfl⟩

theorem leValue_leBytes
    {width n : Nat}
    (hLt : n < 256 ^ width) :
    leValue (leBytes width n) = n := by
  have hBytes :
      (leBytes width n).map UInt8.toNat =
        digits 256 width n := by
    unfold leBytes
    rw [List.map_map]
    conv_rhs => rw [← List.map_id (digits 256 width n)]
    apply List.map_congr_left
    intro d hMem
    have hd : d < 256 :=
      lt_of_mem_digits (by decide) hMem
    simpa using Nat.mod_eq_of_lt hd
  rw [leValue, hBytes, ofDigits_digits hLt]

/- Bytes of one width are determined by their number. -/
theorem leValue_inj
    {bytes bytes' : Bytes}
    (hLength : bytes.length = bytes'.length)
    (hEq : leValue bytes = leValue bytes') :
    bytes = bytes' := by
  have hLt :
      ∀ bs : Bytes, ∀ d ∈ bs.map UInt8.toNat, d < 256 := by
    intro bs d hMem
    rcases List.mem_map.mp hMem with ⟨b, _, rfl⟩
    exact b.toNat_lt
  have hDigits :
      bytes.map UInt8.toNat = bytes'.map UInt8.toNat :=
    Nat.ofDigits_inj_of_len_eq (by decide) (by simpa)
      (hLt bytes) (hLt bytes') hEq
  exact
    List.map_injective_iff.mpr
      (fun _ _ h => UInt8.toNat_inj.mp h) hDigits

theorem leValue_lt
    (bytes : Bytes) :
    leValue bytes < 256 ^ bytes.length := by
  have hLt : ∀ d ∈ bytes.map UInt8.toNat, d < 256 := by
    intro d hMem
    rcases List.mem_map.mp hMem with ⟨b, _, rfl⟩
    exact b.toNat_lt
  have hBound :=
    Nat.ofDigits_lt_base_pow_length (by decide) hLt
  rw [List.length_map] at hBound
  exact hBound

theorem digitChar_injOn :
    ∀ d < 16, ∀ e < 16,
      Nat.digitChar d = Nat.digitChar e → d = e := by
  decide

theorem map_digitChar_injOn
    {ds es : List Nat}
    (hds : ∀ d ∈ ds, d < 16)
    (hes : ∀ e ∈ es, e < 16)
    (hEq :
      ds.map Nat.digitChar = es.map Nat.digitChar) :
    ds = es := by
  induction ds generalizing es with
  | nil => exact (List.map_eq_nil_iff.mp hEq.symm).symm
  | cons d ds ih =>
      rcases List.map_eq_cons_iff.mp hEq.symm with
        ⟨e, es', rfl, hHead, hTail⟩
      have hFirst : d = e :=
        digitChar_injOn d (hds d List.mem_cons_self) e
          (hes e List.mem_cons_self) hHead.symm
      have hRest : ds = es' :=
        ih (fun d' h => hds d' (List.mem_cons_of_mem _ h))
          (fun e' h => hes e' (List.mem_cons_of_mem _ h))
          hTail.symm
      rw [hFirst, hRest]

theorem hex_injOn
    {width m n : Nat}
    (hm : m < 16 ^ width)
    (hn : n < 16 ^ width)
    (hEq : hex width m = hex width n) :
    m = n := by
  have hChars :
      (digits 16 width m).map Nat.digitChar =
        (digits 16 width n).map Nat.digitChar :=
    List.reverse_injective hEq
  apply digits_injOn hm hn
  apply map_digitChar_injOn _ _ hChars
  · intro d hMem
    exact lt_of_mem_digits (by decide) hMem
  · intro e hMem
    exact lt_of_mem_digits (by decide) hMem

end Digits

------------------------------------------------------------
-- Reading Hexadecimal
------------------------------------------------------------

namespace Digits

/- The value of a hexadecimal digit in either case. -/
def hexValue
    (c : Char) : Option Nat :=
  (List.range 16).find? fun d => d.digitChar == c.toLower

/- The bytes that pairs of digits denote. -/
def readHex : List Char → Option Bytes
| [] => some []
| [_] => none
| high :: low :: rest =>
    match hexValue high, hexValue low, readHex rest with
    | some d, some e, some bytes =>
        some (UInt8.ofNat (16 * d + e) :: bytes)
    | _, _, _ => none

theorem hexValue_eq_some_iff
    {c : Char}
    {d : Nat} :
    hexValue c = some d ↔
      d < 16 ∧ d.digitChar = c.toLower := by
  constructor
  · intro hFind
    have hDigit := List.find?_some hFind
    exact
      ⟨List.mem_range.mp (List.mem_of_find?_eq_some hFind),
        eq_of_beq hDigit⟩
  · rintro ⟨hLt, hDigit⟩
    cases hFind : hexValue c with
    | none =>
        have hNot :=
          List.find?_eq_none.mp hFind d
            (List.mem_range.mpr hLt)
        exact (hNot (beq_iff_eq.mpr hDigit)).elim
    | some e =>
        have hOther := List.find?_some hFind
        have heLt :=
          List.mem_range.mp (List.mem_of_find?_eq_some hFind)
        have hSame :=
          digitChar_injOn d hLt e heLt
            (hDigit.trans (eq_of_beq hOther).symm)
        rw [hSame]

/- The two digits of a byte. -/
theorem hex_byte
    (b : UInt8) :
    hex 2 b.toNat =
      [(b.toNat / 16).digitChar,
        (b.toNat % 16).digitChar] := by
  have hLt := b.toNat_lt
  have hHigh : b.toNat / 16 % 16 = b.toNat / 16 := by
    omega
  simp [hex, digits, hHigh]

/- Digits denote bytes when in lower case they are theirs. -/
theorem readHex_eq_some_iff
    {cs : List Char}
    {bytes : Bytes} :
    readHex cs = some bytes ↔
      cs.map Char.toLower =
        bytes.flatMap fun b => hex 2 b.toNat := by
  induction bytes generalizing cs with
  | nil =>
      rcases cs with _ | ⟨high, _ | ⟨low, rest⟩⟩
      · simp [readHex]
      · simp [readHex]
      · simp only [readHex, List.flatMap_nil, List.map_cons,
          reduceCtorEq, iff_false]
        split <;> simp
  | cons b bytes ih =>
      have hbLt := b.toNat_lt
      rw [List.flatMap_cons, hex_byte]
      rcases cs with _ | ⟨high, _ | ⟨low, rest⟩⟩
      · simp [readHex]
      · simp [readHex]
      · rw [List.map_cons, List.map_cons, List.cons_append,
          List.cons_append, List.nil_append, List.cons.injEq,
          List.cons.injEq, ← ih]
        have hHigh :
            hexValue high = some (b.toNat / 16) ↔
              high.toLower = (b.toNat / 16).digitChar := by
          rw [hexValue_eq_some_iff]
          constructor
          · exact fun h => h.2.symm
          · exact fun h => ⟨by omega, h.symm⟩
        have hLow :
            hexValue low = some (b.toNat % 16) ↔
              low.toLower = (b.toNat % 16).digitChar := by
          rw [hexValue_eq_some_iff]
          constructor
          · exact fun h => h.2.symm
          · exact fun h => ⟨by omega, h.symm⟩
        rw [← hHigh, ← hLow]
        constructor
        · intro hRead
          simp only [readHex] at hRead
          split at hRead
          · rename_i d e tail hd he hTail
            cases hRead
            have hdLt := (hexValue_eq_some_iff.mp hd).1
            have heLt := (hexValue_eq_some_iff.mp he).1
            have hByte :
                (UInt8.ofNat (16 * d + e)).toNat =
                  16 * d + e := by
              simp
              omega
            have hDiv : (16 * d + e) / 16 = d := by
              omega
            have hMod : (16 * d + e) % 16 = e := by
              omega
            rw [hByte, hDiv, hMod]
            exact ⟨hd, he, hTail⟩
          · cases hRead
        · rintro ⟨hd, he, hTail⟩
          simp only [readHex, hd, he, hTail]
          have hSum :
              16 * (b.toNat / 16) + b.toNat % 16 =
                b.toNat := by
            omega
          rw [hSum, UInt8.ofNat_toNat]

end Digits
