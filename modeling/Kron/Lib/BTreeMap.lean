import Mathlib

/-
  Ordered finite maps.

  A map is an extensional search tree, so two maps with the
  same lookups are equal, and `toList` lists the bindings by
  increasing key. Lookups after an update are restated here
  with an equality test on keys.

  Key definitions include:
    * `BTreeMap`
    * `BTreeMap.vals`
    * `BTreeMap.modify?`
    * `BTreeMap.select`

  Key theorems include:
    * `BTreeMap.get_insert`
    * `BTreeMap.get_erase`
    * `BTreeMap.get_select`
    * `BTreeMap.mem_vals_iff`
    * `BTreeMap.find?_vals_eq_some_iff`
    * `BTreeMap.ext_get`
-/

------------------------------------------------------------
-- Maps And Their Values
------------------------------------------------------------

/- Finite maps iterated in key order. -/
abbrev BTreeMap (κ α : Type) [Ord κ] :=
  Std.ExtTreeMap κ α compare

namespace BTreeMap

variable {κ α : Type}
variable [Ord κ] [Std.TransOrd κ] [Std.LawfulEqOrd κ]

/- The values in key order. -/
def vals
    (m : BTreeMap κ α) : List α :=
  m.toList.map Prod.snd

/- Update the value of a key that is present. -/
def modify?
    (m : BTreeMap κ α)
    (k : κ)
    (f : α → α) : BTreeMap κ α :=
  match m[k]? with
  | none => m
  | some a => m.insert k (f a)

/- Maps with the same lookups are equal. -/
theorem ext_get
    {m m' : BTreeMap κ α}
    (h : ∀ k : κ, m[k]? = m'[k]?) :
    m = m' :=
  Std.ExtTreeMap.ext_getElem? h

end BTreeMap

namespace BTreeMap

variable {κ α : Type}
variable [Ord κ] [Std.TransOrd κ]

/- A key with a value is in the map. -/
theorem mem_of_get
    {m : BTreeMap κ α}
    {k : κ}
    {v : α}
    (hGet : m[k]? = some v) :
    k ∈ m := by
  rw [← Std.ExtTreeMap.isSome_getElem?_iff_mem, hGet]
  rfl

end BTreeMap

namespace BTreeMap

variable {κ α : Type}
variable [Ord κ] [Std.TransOrd κ] [Std.LawfulEqOrd κ]

/- Rebinding a key keeps the keys. -/
theorem mem_insert_iff_of_mem
    {m : BTreeMap κ α}
    {k : κ}
    (hMem : k ∈ m)
    (v : α)
    (a : κ) :
    a ∈ m.insert k v ↔ a ∈ m := by
  rw [Std.ExtTreeMap.mem_insert,
    Std.LawfulEqOrd.compare_eq_iff_eq]
  constructor
  · rintro (hEq | hIn)
    · rw [← hEq]
      exact hMem
    · exact hIn
  · exact Or.inr

end BTreeMap

------------------------------------------------------------
-- Lookup After Update
------------------------------------------------------------

namespace BTreeMap

variable {κ α : Type}
variable [Ord κ] [Std.TransOrd κ] [Std.LawfulEqOrd κ]
variable [DecidableEq κ]

/- Lookup after an insertion. -/
theorem get_insert
    (m : BTreeMap κ α)
    (k a : κ)
    (v : α) :
    (m.insert k v)[a]? =
      if k = a then some v else m[a]? := by
  rw [Std.ExtTreeMap.getElem?_insert]
  simp only [Std.LawfulEqOrd.compare_eq_iff_eq]

theorem get_insert_ne
    (m : BTreeMap κ α)
    {k a : κ}
    (v : α)
    (hNe : k ≠ a) :
    (m.insert k v)[a]? = m[a]? := by
  simp [get_insert, hNe]

/- Lookup after a removal. -/
theorem get_erase
    (m : BTreeMap κ α)
    (k a : κ) :
    (m.erase k)[a]? =
      if k = a then none else m[a]? := by
  rw [Std.ExtTreeMap.getElem?_erase]
  simp only [Std.LawfulEqOrd.compare_eq_iff_eq]

theorem get_erase_ne
    (m : BTreeMap κ α)
    {k a : κ}
    (hNe : k ≠ a) :
    (m.erase k)[a]? = m[a]? := by
  simp [get_erase, hNe]

/- Lookup after updating a present key. -/
theorem get_modify?
    (m : BTreeMap κ α)
    (k a : κ)
    (f : α → α) :
    (m.modify? k f)[a]? =
      if k = a then (m[a]?).map f else m[a]? := by
  unfold modify?
  cases hGet : m[k]? with
  | none =>
      by_cases hEq : k = a
      · subst hEq
        simp [hGet]
      · simp [hEq]
  | some v =>
      rw [get_insert]
      by_cases hEq : k = a
      · subst hEq
        simp [hGet]
      · simp [hEq]

end BTreeMap

------------------------------------------------------------
-- Selecting Values
------------------------------------------------------------

namespace BTreeMap

variable {κ α : Type}
variable [Ord κ] [Std.TransOrd κ] [Std.LawfulEqOrd κ]

/- The bindings whose value passes a test. -/
def select
    (m : BTreeMap κ α)
    (p : α → Bool) : BTreeMap κ α :=
  m.filter fun _ a => p a

theorem get_select
    (m : BTreeMap κ α)
    (p : α → Bool)
    (k : κ) :
    (m.select p)[k]? = (m[k]?).filter p :=
  Std.ExtTreeMap.getElem?_filter'

/- A binding that passes stays when others are left out. -/
theorem get_select_of_pos
    {m : BTreeMap κ α}
    {p : α → Bool}
    {k : κ}
    (hPos : ∀ a, m[k]? = some a → p a = true) :
    (m.select p)[k]? = m[k]? := by
  rw [get_select]
  cases hGet : m[k]? with
  | none => rfl
  | some a => simp [Option.filter, hPos a hGet]

variable [DecidableEq κ]

theorem select_insert_of_pos
    (m : BTreeMap κ α)
    {p : α → Bool}
    (k : κ)
    {a : α}
    (hPos : p a = true) :
    select (m.insert k a) p = (m.select p).insert k a := by
  apply ext_get
  intro k'
  rw [get_select, get_insert, get_insert, get_select]
  split
  · simp [Option.filter, hPos]
  · rfl

/- A binding that fails the test replaces another one. -/
theorem select_insert_of_neg
    {m : BTreeMap κ α}
    {p : α → Bool}
    {k : κ}
    {a : α}
    (hNeg : p a = false)
    (hOld : ∀ b, m[k]? = some b → p b = false) :
    select (m.insert k a) p = m.select p := by
  apply ext_get
  intro k'
  rw [get_select, get_insert, get_select]
  split
  · rename_i hKey
    subst hKey
    cases hGet : m[k]? with
    | none => simp [Option.filter, hNeg]
    | some b => simp [Option.filter, hNeg, hOld b hGet]
  · rfl

theorem select_erase
    (m : BTreeMap κ α)
    (p : α → Bool)
    (k : κ) :
    select (m.erase k) p = (m.select p).erase k := by
  apply ext_get
  intro k'
  rw [get_select, get_erase, get_erase, get_select]
  split
  · rfl
  · rfl

/- Removing a binding that fails the test changes nothing. -/
theorem select_erase_of_neg
    {m : BTreeMap κ α}
    {p : α → Bool}
    {k : κ}
    (hOld : ∀ b, m[k]? = some b → p b = false) :
    select (m.erase k) p = m.select p := by
  apply ext_get
  intro k'
  rw [get_select, get_erase, get_select]
  split
  · rename_i hKey
    subst hKey
    cases hGet : m[k]? with
    | none => rfl
    | some b => simp [Option.filter, hOld b hGet]
  · rfl

end BTreeMap

------------------------------------------------------------
-- Membership Of Values
------------------------------------------------------------

namespace BTreeMap

variable {κ α : Type}
variable [Ord κ] [Std.TransOrd κ] [Std.LawfulEqOrd κ]

/- A value is listed exactly when some key is bound to it. -/
theorem mem_vals_iff
    (m : BTreeMap κ α)
    (v : α) :
    v ∈ m.vals ↔ ∃ k : κ, m[k]? = some v := by
  unfold vals
  constructor
  · intro hMem
    rcases List.mem_map.mp hMem with ⟨⟨k, w⟩, hPair, hEq⟩
    have hwv : w = v := hEq
    subst hwv
    exact
      ⟨k, Std.ExtTreeMap.mem_toList_iff_getElem?_eq_some.mp
        hPair⟩
  · rintro ⟨k, hGet⟩
    apply List.mem_map.mpr
    exact
      ⟨(k, v),
        Std.ExtTreeMap.mem_toList_iff_getElem?_eq_some.mpr
          hGet, rfl⟩

/- A search through the values finds the least key. -/
theorem find?_vals_eq_some_iff
    (m : BTreeMap κ α)
    {p : α → Bool}
    {v : α} :
    m.vals.find? p = some v ↔
      ∃ k : κ,
        m[k]? = some v ∧ p v = true ∧
          ∀ (k' : κ) (v' : α),
            m[k']? = some v' → p v' = true →
              (compare k k').isLE = true := by
  have hFirst :
      ∀ w, m.vals.find? p = some w →
        ∃ k : κ,
          m[k]? = some w ∧ p w = true ∧
            ∀ (k' : κ) (v' : α),
              m[k']? = some v' → p v' = true →
                (compare k k').isLE = true := by
    intro w hFind
    unfold vals at hFind
    rw [List.find?_map] at hFind
    rcases Option.map_eq_some_iff.mp hFind with
      ⟨⟨k, w'⟩, hPair, hEq⟩
    have hww : w' = w := hEq
    subst hww
    rcases List.find?_eq_some_iff_append.mp hPair with
      ⟨hSat, before, rest, hSplit, hBefore⟩
    have hOrder :=
      @Std.ExtTreeMap.ordered_keys_toList κ α compare m _
    rw [hSplit] at hOrder
    refine
      ⟨k, Std.ExtTreeMap.mem_toList_iff_getElem?_eq_some.mp
        (List.mem_of_find?_eq_some hPair), hSat, ?_⟩
    intro k' v' hGet hSat'
    have hMem :=
      Std.ExtTreeMap.mem_toList_iff_getElem?_eq_some.mpr
        hGet
    rw [hSplit] at hMem
    rcases List.mem_append.mp hMem with hEarly | hLate
    · have hNot := hBefore (k', v') hEarly
      simp [hSat'] at hNot
    · rcases List.mem_cons.mp hLate with hSame | hRest
      · cases hSame
        simp
      · have hLess :=
          (List.pairwise_cons.mp
            (List.pairwise_append.mp hOrder).2.1).1 _ hRest
        simp only at hLess
        rw [hLess]
        rfl
  constructor
  · exact hFirst v
  · rintro ⟨k, hGet, hSat, hLeast⟩
    cases hFind : m.vals.find? p with
    | none =>
        have hNot :=
          List.find?_eq_none.mp hFind v
            ((mem_vals_iff m v).mpr ⟨k, hGet⟩)
        exact (hNot hSat).elim
    | some w =>
        rcases hFirst w hFind with
          ⟨k', hGet', hSat', hLeast'⟩
        have hAnti :=
          Std.OrientedCmp.isLE_antisymm
            (hLeast k' w hGet' hSat')
            (hLeast' k v hGet hSat)
        have hSame :=
          Std.LawfulEqOrd.compare_eq_iff_eq.mp hAnti
        rw [hSame, hGet'] at hGet
        exact hGet

/- Maps over countable types are countable. -/
instance
    [Countable κ] [Countable α] :
    Countable (BTreeMap κ α) :=
  Function.Injective.countable
    (f := fun m : BTreeMap κ α => m.toList)
    (fun _ _ h => Std.ExtTreeMap.toList_inj.mp h)

end BTreeMap
