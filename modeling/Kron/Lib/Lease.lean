import Kron.Lib.Machine

/-
  Exclusive leases.

  A resource is claimed and given back. Its ledger lists the
  claims and the ends of claims in order. The ledger is legal
  when nothing is claimed twice before it is given back and
  nothing is given back by another than its holder.

  Key definitions include:
    * `Lease.Event`
    * `Lease.step`
    * `Lease.Holds`
    * `Lease.Alternates`

  Key theorems include:
    * `Lease.holds_claim`
    * `Lease.holds_finish`
    * `Lease.alternates_of_holds`
    * `Lease.getLast?_claim_iff_of_holds`
-/

------------------------------------------------------------
-- Ledgers
------------------------------------------------------------

namespace Lease

variable {α : Type}

/- An entry of a ledger; `a` identifies the claim. -/
inductive Event (α : Type) where
| claim (a : α)
| finish (a : α)
deriving DecidableEq, Repr

/- The holder after an event, if the event is legal. -/
def step
    [DecidableEq α] :
    Option α → Event α → Option (Option α)
| none, .claim a => some (some a)
| some a, .finish b => if a = b then some none else none
| _, _ => none

/- The ledger is legal and leaves the given holder. -/
def Holds
    [DecidableEq α]
    (events : List (Event α))
    (holder : Option α) : Prop :=
  Machine.run step none events = some holder

/-
  Claims stand at even positions, and each odd position
  ends the claim directly before it.
-/
def Alternates
    (events : List (Event α)) : Prop :=
  ∀ i e, events[i]? = some e →
    (i % 2 = 0 → ∃ a, e = .claim a) ∧
      (i % 2 = 1 →
        ∃ a, events[i - 1]? = some (.claim a) ∧
          e = .finish a)

end Lease

------------------------------------------------------------
-- Legal Ledgers
------------------------------------------------------------

namespace Lease

variable {α : Type}
variable [DecidableEq α]
variable {events : List (Event α)}

theorem holds_nil :
    Holds ([] : List (Event α)) none := rfl

/- A free resource may be claimed. -/
theorem holds_claim
    (a : α)
    (hHolds : Holds events none) :
    Holds (events ++ [.claim a]) (some a) := by
  unfold Holds at *
  rw [Machine.run_append, hHolds]
  rfl

/- The holder may give the resource back. -/
theorem holds_finish
    {a : α}
    (hHolds : Holds events (some a)) :
    Holds (events ++ [.finish a]) none := by
  unfold Holds at *
  rw [Machine.run_append, hHolds]
  simp [Machine.run, step]

/-
  What a legal ledger looks like: it alternates, its length
  tells whether the resource is held, and its last entry is
  a claim exactly by the holder.
-/
private structure Shape
    (events : List (Event α))
    (holder : Option α) : Prop where
  alternates : Alternates events
  odd : events.length % 2 = 1 ↔ holder.isSome
  last :
    ∀ a,
      events[events.length - 1]? = some (.claim a) ↔
        holder = some a

omit [DecidableEq α] in
/- One more event at the end keeps a ledger alternating. -/
private theorem alternates_concat
    {e : Event α}
    (hAlternates : Alternates events)
    (hEven : events.length % 2 = 0 → ∃ a, e = .claim a)
    (hOdd :
      events.length % 2 = 1 →
        ∃ a, events[events.length - 1]? = some (.claim a) ∧
          e = .finish a) :
    Alternates (events ++ [e]) := by
  intro i e' hGet
  by_cases hLt : i < events.length
  · rw [List.getElem?_append_left hLt] at hGet
    rw [List.getElem?_append_left (by omega)]
    exact hAlternates i e' hGet
  · have hBound : i < (events ++ [e]).length := by
      rw [List.getElem?_eq_some_iff] at hGet
      exact hGet.1
    have hEq : i = events.length := by
      simp only [List.length_append,
        List.length_singleton] at hBound
      omega
    subst hEq
    have hLast : e = e' := by
      simpa using hGet
    subst hLast
    refine ⟨hEven, ?_⟩
    intro hParity
    rw [List.getElem?_append_left (by omega)]
    exact hOdd hParity

/- One legal event keeps the shape. -/
private theorem shape_step
    {holder holder' : Option α}
    {e : Event α}
    (hShape : Shape events holder)
    (hStep : step holder e = some holder') :
    Shape (events ++ [e]) holder' := by
  have hLength :
      (events ++ [e]).length = events.length + 1 := by
    simp
  cases holder with
  | none =>
      cases e with
      | finish a => simp [step] at hStep
      | claim a =>
          have hHolder : some a = holder' := by
            simpa [step] using hStep
          have hEven : events.length % 2 ≠ 1 := by
            intro hOdd
            simpa using hShape.odd.mp hOdd
          subst hHolder
          refine ⟨?_, ?_, ?_⟩
          · apply alternates_concat hShape.alternates
            · exact fun _ => ⟨a, rfl⟩
            · exact fun hOdd => absurd hOdd hEven
          · rw [hLength]
            simp only [Option.isSome_some, iff_true]
            omega
          · intro b
            simp
  | some a =>
      cases e with
      | claim b => simp [step] at hStep
      | finish b =>
          have hOdd : events.length % 2 = 1 :=
            hShape.odd.mpr rfl
          by_cases hEq : a = b
          · subst hEq
            have hHolder : none = holder' := by
              simpa [step] using hStep
            subst hHolder
            refine ⟨?_, ?_, ?_⟩
            · apply alternates_concat hShape.alternates
              · intro hEven
                omega
              · exact fun _ =>
                  ⟨a, (hShape.last a).mpr rfl, rfl⟩
            · rw [hLength]
              simp only [Option.isSome_none]
              constructor
              · intro hParity
                omega
              · intro hFalse
                cases hFalse
            · intro b
              simp
          · simp [step, hEq] at hStep

/- A legal run from a shaped ledger leaves a shaped one. -/
private theorem shape_run
    {holder holder' : Option α}
    {more : List (Event α)}
    (hShape : Shape events holder)
    (hRun : Machine.run step holder more = some holder') :
    Shape (events ++ more) holder' := by
  induction more generalizing events holder with
  | nil =>
      have hEq : holder = holder' := Option.some.inj hRun
      rw [List.append_nil, ← hEq]
      exact hShape
  | cons e more ih =>
      rcases Machine.run_cons_eq_some hRun with
        ⟨next, hStep, hRest⟩
      have hNext := ih (shape_step hShape hStep) hRest
      rwa [List.append_assoc] at hNext

private theorem shape_of_holds
    {holder : Option α}
    (hHolds : Holds events holder) :
    Shape events holder := by
  have hNil : Shape ([] : List (Event α)) none := by
    refine ⟨?_, by simp, by simp⟩
    intro i e hGet
    simp at hGet
  exact shape_run hNil hHolds

/- A legal ledger alternates claims and their ends. -/
theorem alternates_of_holds
    {holder : Option α}
    (hHolds : Holds events holder) :
    Alternates events :=
  (shape_of_holds hHolds).alternates

/- A legal ledger ends in a claim exactly by its holder. -/
theorem getLast?_claim_iff_of_holds
    {holder : Option α}
    (hHolds : Holds events holder)
    (a : α) :
    events.getLast? = some (.claim a) ↔
      holder = some a := by
  rw [List.getLast?_eq_getElem?]
  exact (shape_of_holds hHolds).last a

end Lease
