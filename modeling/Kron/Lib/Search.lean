import Mathlib.Data.List.Basic
import Mathlib.Data.Nat.Find

/-
  The first element of a list that satisfies a predicate of
  its value and its position.

  Key definitions include:
    * `Search.IsFirst`

  Key theorems include:
    * `Search.IsFirst.unique`
    * `Search.exists_isFirst`
    * `Search.find?_zipIdx_eq_some_iff`
-/

------------------------------------------------------------
-- First Elements
------------------------------------------------------------

namespace Search

variable {α : Type}

/- The element at `i` satisfies `P`, and none before it. -/
structure IsFirst
    (P : α → Nat → Prop)
    (xs : List α)
    (i : Nat)
    (x : α) : Prop where
  get : xs[i]? = some x
  sat : P x i
  before : ∀ j < i, ∀ y, xs[j]? = some y → ¬ P y j

variable {P : α → Nat → Prop}
variable {xs : List α}

theorem IsFirst.unique
    {i j : Nat}
    {x y : α}
    (hx : IsFirst P xs i x)
    (hy : IsFirst P xs j y) :
    i = j ∧ x = y := by
  have hIndex : i = j := by
    rcases Nat.lt_trichotomy i j with hLt | hEq | hGt
    · exact (hy.before i hLt x hx.get hx.sat).elim
    · exact hEq
    · exact (hx.before j hGt y hy.get hy.sat).elim
  subst hIndex
  exact
    ⟨rfl, Option.some.inj (hx.get.symm.trans hy.get)⟩

/- Where some element satisfies `P` there is a first one. -/
theorem exists_isFirst
    {i : Nat}
    {x : α}
    (hGet : xs[i]? = some x)
    (hSat : P x i) :
    ∃ j y, IsFirst P xs j y := by
  classical
  have hSome : ∃ j y, xs[j]? = some y ∧ P y j :=
    ⟨i, x, hGet, hSat⟩
  rcases Nat.find_spec hSome with ⟨y, hFirst, hHolds⟩
  refine ⟨Nat.find hSome, y, hFirst, hHolds, ?_⟩
  intro j hLt z hz hBad
  exact Nat.find_min hSome hLt ⟨z, hz, hBad⟩

/- A search through the numbered list finds the first. -/
theorem find?_zipIdx_eq_some_iff
    {p : α × Nat → Bool}
    {i : Nat}
    {x : α} :
    xs.zipIdx.find? p = some (x, i) ↔
      IsFirst (fun y j => p (y, j) = true) xs i x := by
  rw [List.find?_eq_some_iff_getElem]
  constructor
  · rintro ⟨hSat, k, hLt, hGet, hBefore⟩
    rw [List.getElem_zipIdx, Prod.mk.injEq] at hGet
    have hIndex : k = i := by
      omega
    subst hIndex
    rw [List.length_zipIdx] at hLt
    refine
      ⟨List.getElem?_eq_some_iff.mpr ⟨hLt, hGet.1⟩, hSat, ?_⟩
    intro j hj y hy hBad
    rcases List.getElem?_eq_some_iff.mp hy with ⟨_, hEq⟩
    have hNot := hBefore j hj
    rw [List.getElem_zipIdx, hEq, Nat.zero_add] at hNot
    rw [hBad] at hNot
    cases hNot
  · intro hFirst
    rcases List.getElem?_eq_some_iff.mp hFirst.get with
      ⟨hLt, hEq⟩
    refine
      ⟨hFirst.sat, i, by simpa using hLt, ?_, ?_⟩
    · rw [List.getElem_zipIdx, hEq, Nat.zero_add]
    · intro j hj
      have hjLt : j < xs.length := by
        omega
      have hNot :=
        hFirst.before j hj xs[j]
          (List.getElem?_eq_getElem hjLt)
      rw [List.getElem_zipIdx, Nat.zero_add]
      simpa using hNot

end Search
