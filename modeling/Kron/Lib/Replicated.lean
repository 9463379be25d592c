import Kron.Lib.Machine

/-
  A replicated state machine with proposals in flight.

  A call reads the machine and proposes commands from what it
  read. A proposal stays in flight for any time, while any
  other proposals commit, until it commits or is dropped. The
  trace keeps every committed proposal with the state it met.

  Key definitions include:
    * `Replicated.System`
    * `Replicated.step`
    * `Replicated.Steps`

  Key theorems include:
    * `Replicated.step_commit`
    * `Replicated.run_rule`
    * `Replicated.sublist_concat`
-/

------------------------------------------------------------
-- Systems
------------------------------------------------------------

namespace Replicated

/- A machine, what was proposed to it and what committed. -/
structure System (σ π : Type) where
  state : σ
  proposed : List π
  inflight : List π
  trace : List (σ × π)
deriving DecidableEq

/- A call, or the fate of a proposal in flight. -/
inductive Label (ι : Type) where
| call (c : ι)
| commit (i : Nat)
| drop (i : Nat)
deriving DecidableEq, Repr

variable {σ ι π : Type}

/- A machine to which nothing has been proposed. -/
def System.init
    (state : σ) : System σ π where
  state := state
  proposed := []
  inflight := []
  trace := []

/- The system after a call proposes. -/
def System.propose
    (s : System σ π)
    (proposals : List π) : System σ π :=
  { s with
    proposed := s.proposed ++ proposals
    inflight := s.inflight ++ proposals }

/- The system after a proposal commits. -/
def System.commit
    (s : System σ π)
    (i : Nat)
    (p : π)
    (state : σ) : System σ π where
  state := state
  proposed := s.proposed
  inflight := s.inflight.eraseIdx i
  trace := s.trace ++ [(s.state, p)]

/- One step of the system. -/
def step
    (propose : σ → ι → List π)
    (apply : σ → π → Option σ)
    (s : System σ π) :
    Label ι → Option (System σ π)
| .call c => some (s.propose (propose s.state c))
| .commit i =>
    match s.inflight[i]? with
    | none => none
    | some p =>
        (apply s.state p).map fun state =>
          s.commit i p state
| .drop i =>
    if i < s.inflight.length then
      some { s with inflight := s.inflight.eraseIdx i }
    else
      none

end Replicated

------------------------------------------------------------
-- Rules For Runs
------------------------------------------------------------

namespace Replicated

variable {σ ι π : Type}
variable {propose : σ → ι → List π}
variable {apply : σ → π → Option σ}

/- A commit applies a proposal that is in flight. -/
theorem step_commit
    {s s' : System σ π}
    {i : Nat}
    (hStep : step propose apply s (.commit i) = some s') :
    ∃ p state,
      s.inflight[i]? = some p ∧
        apply s.state p = some state ∧
          s' = s.commit i p state := by
  unfold step at hStep
  cases hGet : s.inflight[i]? with
  | none => simp [hGet] at hStep
  | some p =>
      simp only [hGet, Option.map_eq_some_iff] at hStep
      rcases hStep with ⟨state, hApply, hEq⟩
      exact ⟨p, state, rfl, hApply, hEq.symm⟩

/- A drop only shortens what is in flight. -/
theorem step_drop
    {s s' : System σ π}
    {i : Nat}
    (hStep : step propose apply s (.drop i) = some s') :
    s' = { s with inflight := s.inflight.eraseIdx i } := by
  simp only [step] at hStep
  by_cases hLt : i < s.inflight.length
  · rw [if_pos hLt] at hStep
    exact (Option.some.inj hStep).symm
  · rw [if_neg hLt] at hStep
    cases hStep

/-
  A condition on a step: one on calls, and one on the
  proposal that a commit applies.
-/
def Steps
    (OnCall : System σ π → ι → Prop)
    (OnCommit : System σ π → π → Prop)
    (s : System σ π) :
    Label ι → Prop
| .call c => OnCall s c
| .commit i => ∀ p, s.inflight[i]? = some p → OnCommit s p
| .drop _ => True

instance
    (OnCall : System σ π → ι → Prop)
    (OnCommit : System σ π → π → Prop)
    [∀ s c, Decidable (OnCall s c)]
    [∀ s p, Decidable (OnCommit s p)]
    (s : System σ π) :
    ∀ label, Decidable (Steps OnCall OnCommit s label)
| .call c => inferInstanceAs (Decidable (OnCall s c))
| .commit i =>
    inferInstanceAs
      (Decidable (∀ p ∈ s.inflight[i]?, OnCommit s p))
| .drop _ => .isTrue trivial

/-
  The rule of invariants. `Good` is about the machine, what
  was proposed and the trace; `Pend` is what holds of each
  proposal in flight. Calls establish `Pend` of what they
  propose, commits keep `Good` and the `Pend` of the others.
-/
theorem run_rule
    {OnCall : System σ π → ι → Prop}
    {OnCommit : System σ π → π → Prop}
    (Good : σ → List π → List (σ × π) → Prop)
    (Pend : σ → List π → π → Prop)
    (hCall :
      ∀ s c, Good s.state s.proposed s.trace → OnCall s c →
        Good s.state (s.proposed ++ propose s.state c)
          s.trace)
    (hPropose :
      ∀ s c, Good s.state s.proposed s.trace → OnCall s c →
        ∀ p,
          p ∈ propose s.state c ∨
              Pend s.state s.proposed p →
            Pend s.state
              (s.proposed ++ propose s.state c) p)
    (hCommit :
      ∀ s p state, Good s.state s.proposed s.trace →
        Pend s.state s.proposed p → OnCommit s p →
          apply s.state p = some state →
            Good state s.proposed
              (s.trace ++ [(s.state, p)]))
    (hKeep :
      ∀ s p q state, Good s.state s.proposed s.trace →
        Pend s.state s.proposed p → OnCommit s p →
          apply s.state p = some state →
            Pend s.state s.proposed q →
              Pend state s.proposed q)
    {s t : System σ π}
    {labels : List (Label ι)}
    (hGood : Good s.state s.proposed s.trace)
    (hPend :
      ∀ p ∈ s.inflight, Pend s.state s.proposed p)
    (hMeets :
      Machine.Meets (step propose apply)
        (Steps OnCall OnCommit) s labels)
    (hRun :
      Machine.run (step propose apply) s labels = some t) :
    Good t.state t.proposed t.trace ∧
      ∀ p ∈ t.inflight, Pend t.state t.proposed p := by
  apply Machine.run_invariant
    (fun s : System σ π =>
      Good s.state s.proposed s.trace ∧
        ∀ p ∈ s.inflight, Pend s.state s.proposed p)
    _ ⟨hGood, hPend⟩ hMeets hRun
  rintro s label s' ⟨hGood, hPend⟩ hOn hStep
  cases label with
  | call c =>
      cases hStep
      refine ⟨hCall s c hGood hOn, ?_⟩
      intro p hp
      rcases List.mem_append.mp hp with hOld | hNew
      · exact hPropose s c hGood hOn p (.inr (hPend p hOld))
      · exact hPropose s c hGood hOn p (.inl hNew)
  | commit i =>
      rcases step_commit hStep with
        ⟨p, state, hGet, hApply, rfl⟩
      have hp := hPend p (List.mem_of_getElem? hGet)
      have hOn' := hOn p hGet
      refine ⟨hCommit s p state hGood hp hOn' hApply, ?_⟩
      intro q hq
      exact hKeep s p q state hGood hp hOn' hApply
        (hPend q (List.mem_of_mem_eraseIdx hq))
  | drop i =>
      rw [step_drop hStep]
      refine ⟨hGood, ?_⟩
      intro p hp
      exact hPend p (List.mem_of_mem_eraseIdx hp)

end Replicated

------------------------------------------------------------
-- Order In A Trace
------------------------------------------------------------

namespace Replicated

/-
  Entries that follow each other in an extended trace do so
  in the trace, or the last of them is the new entry.
-/
theorem sublist_concat
    {α : Type}
    (xs : List α)
    {trace : List α}
    {x y : α}
    (hSub : (xs ++ [x]).Sublist (trace ++ [y])) :
    (xs ++ [x]).Sublist trace ∨
      x = y ∧ xs.Sublist trace := by
  rcases List.sublist_append_iff.mp hSub with
    ⟨l₁, l₂, hEq, hSub₁, hSub₂⟩
  rcases List.sublist_singleton.mp hSub₂ with rfl | rfl
  · left
    rw [hEq, List.append_nil]
    exact hSub₁
  · right
    rcases List.append_inj' hEq rfl with ⟨rfl, hLast⟩
    exact ⟨by simpa using hLast, hSub₁⟩

end Replicated
