import Mathlib

/-
  Folds that tell one changed symbol.

  Where the result of a step tells its state, and tells its
  symbol, a fold over a list tells the state it began with,
  and a symbol that was put in place of another.

  Key definitions include:
    * `Folds.Faithful`

  Key theorems include:
    * `Folds.foldl_injective`
    * `Folds.foldl_set_eq_iff`
-/

------------------------------------------------------------
-- Faithful Steps
------------------------------------------------------------

namespace Folds

variable {σ β : Type}

/- The result tells either argument from the other. -/
structure Faithful
    (step : σ → β → σ) : Prop where
  state : ∀ b, Function.Injective fun s => step s b
  symbol : ∀ s, Function.Injective (step s)

variable {step : σ → β → σ}

/- Different states stay different under the same symbols. -/
theorem foldl_injective
    (hStep : Faithful step)
    (symbols : List β) :
    Function.Injective fun s => symbols.foldl step s := by
  induction symbols with
  | nil => exact fun _ _ hEq => hEq
  | cons b symbols ih =>
      intro s s' hEq
      exact hStep.state b (ih hEq)

/- Only the same symbol in its place gives the same fold. -/
theorem foldl_set_eq_iff
    (hStep : Faithful step)
    {symbols : List β}
    {i : Nat}
    (hi : i < symbols.length)
    (s : σ)
    (b : β) :
    (symbols.set i b).foldl step s =
        symbols.foldl step s ↔
      b = symbols[i] := by
  constructor
  · intro hEq
    have hSplit :
        symbols =
          symbols.take i ++
            symbols[i] :: symbols.drop (i + 1) := by
      rw [List.getElem_cons_drop, List.take_append_drop]
    have hOld :
        symbols.foldl step s =
          (symbols.drop (i + 1)).foldl step
            (step ((symbols.take i).foldl step s)
              symbols[i]) := by
      conv_lhs => rw [hSplit]
      rw [List.foldl_append, List.foldl_cons]
    rw [hOld, List.set_eq_take_append_cons_drop, if_pos hi,
      List.foldl_append, List.foldl_cons] at hEq
    exact hStep.symbol _ (foldl_injective hStep _ hEq)
  · rintro rfl
    rw [List.set_getElem_self]

end Folds
