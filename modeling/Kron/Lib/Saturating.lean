import Mathlib

/-
  Saturating arithmetic under a cap.

  An operation that stops at a bound gives the same as the
  exact one, where the result is capped below the bound.

  Key theorems include:
    * `Saturating.min_add_min`
    * `Saturating.min_mul_min`
-/

------------------------------------------------------------
-- Bounds Above A Cap
------------------------------------------------------------

namespace Saturating

variable {a b bound cap : Nat}

theorem min_min
    (hCap : cap ≤ bound) :
    min (min a bound) cap = min a cap := by
  rw [min_assoc, min_eq_right hCap]

/- A summand may stop at a bound above the cap. -/
theorem min_add_min
    (hCap : cap ≤ bound) :
    min (a + min b bound) cap = min (a + b) cap := by
  rcases Nat.le_total b bound with hLe | hLe
  · rw [min_eq_left hLe]
  · rw [min_eq_right hLe,
      min_eq_right (hCap.trans (Nat.le_add_left bound a)),
      min_eq_right
        ((hCap.trans hLe).trans (Nat.le_add_left b a))]

/- So may a factor; where the other is zero, both vanish. -/
theorem min_mul_min
    (hCap : cap ≤ bound) :
    min (a * min b bound) cap = min (a * b) cap := by
  rcases Nat.le_total b bound with hLe | hLe
  · rw [min_eq_left hLe]
  · rcases Nat.eq_zero_or_pos a with rfl | hPos
    · rw [Nat.zero_mul, Nat.zero_mul]
    · have hBound : cap ≤ a * bound :=
        hCap.trans (Nat.le_mul_of_pos_left bound hPos)
      have hFactor : cap ≤ a * b :=
        (hCap.trans hLe).trans
          (Nat.le_mul_of_pos_left b hPos)
      rw [min_eq_right hLe, min_eq_right hBound,
        min_eq_right hFactor]

end Saturating
