import Mathlib

/-
  Runs of a labelled machine.

  A machine is a partial step function on a state type; a
  label carries every choice the environment makes in one
  step. A run is a list of labels, and a condition on steps
  may be required of each step of a run.

  Key definitions include:
    * `Machine.run`
    * `Machine.Meets`

  Key theorems include:
    * `Machine.run_append`
    * `Machine.run_invariant_rest`
    * `Machine.run_invariant`
    * `Machine.exists_run`
    * `Machine.Meets.and`
    * `Machine.Meets.of_initial`
    * `Machine.meets_of_prefixes`
    * `Machine.Meets.of_invariant`
-/

------------------------------------------------------------
-- Runs
------------------------------------------------------------

namespace Machine

variable {σ ℓ : Type}

/- Take the labelled steps in order. -/
def run
    (step : σ → ℓ → Option σ) :
    σ → List ℓ → Option σ
| s, [] => some s
| s, l :: ls =>
    match step s l with
    | none => none
    | some s' => run step s' ls

/- Every step of a run meets the condition. -/
def Meets
    (step : σ → ℓ → Option σ)
    (Cond : σ → ℓ → Prop) :
    σ → List ℓ → Prop
| _, [] => True
| s, l :: ls =>
    Cond s l ∧
      ∀ s', step s l = some s' → Meets step Cond s' ls

/- Whether a run meets a condition can be computed. -/
instance decidableMeets
    (step : σ → ℓ → Option σ)
    (Cond : σ → ℓ → Prop)
    [∀ s l, Decidable (Cond s l)] :
    ∀ s ls, Decidable (Meets step Cond s ls)
| _, [] => .isTrue trivial
| s, l :: ls =>
    have : Decidable
        (∀ s', step s l = some s' →
          Meets step Cond s' ls) :=
      match hStep : step s l with
      | none => .isTrue (by simp)
      | some s' =>
          have := decidableMeets step Cond s' ls
          decidable_of_iff (Meets step Cond s' ls) (by simp)
    inferInstanceAs (Decidable (_ ∧ _))

@[simp] theorem run_nil
    (step : σ → ℓ → Option σ)
    (s : σ) :
    run step s [] = some s := rfl

theorem run_cons_of_step
    {step : σ → ℓ → Option σ}
    {s s' : σ}
    {l : ℓ}
    (hStep : step s l = some s')
    (ls : List ℓ) :
    run step s (l :: ls) = run step s' ls := by
  rw [run, hStep]

/- A nonempty run starts with one step. -/
theorem run_cons_eq_some
    {step : σ → ℓ → Option σ}
    {s t : σ}
    {l : ℓ}
    {ls : List ℓ}
    (hRun : run step s (l :: ls) = some t) :
    ∃ s', step s l = some s' ∧ run step s' ls = some t := by
  unfold run at hRun
  cases hStep : step s l with
  | none =>
      simp [hStep] at hRun
  | some s' =>
      rw [hStep] at hRun
      exact ⟨s', rfl, hRun⟩

/- Running a concatenation runs its parts in turn. -/
theorem run_append
    (step : σ → ℓ → Option σ)
    (s : σ)
    (ls ls' : List ℓ) :
    run step s (ls ++ ls') =
      (run step s ls).bind fun t => run step t ls' := by
  induction ls generalizing s with
  | nil => rfl
  | cons l ls ih =>
      simp only [List.cons_append, run]
      cases step s l with
      | none => rfl
      | some s' => exact ih s'

end Machine

------------------------------------------------------------
-- Invariants Of Runs
------------------------------------------------------------

namespace Machine

variable {σ ℓ : Type}
variable {step : σ → ℓ → Option σ}

/-
  An invariant may speak of the labels that are still to be
  taken.
-/
theorem run_invariant_rest
    {Cond : σ → ℓ → Prop}
    (Inv : σ → List ℓ → Prop)
    (hStep :
      ∀ s l ls s', Inv s (l :: ls) → Cond s l →
        step s l = some s' → Inv s' ls)
    {s t : σ}
    {ls : List ℓ}
    (hInv : Inv s ls)
    (hMeets : Meets step Cond s ls)
    (hRun : run step s ls = some t) :
    Inv t [] := by
  induction ls generalizing s with
  | nil =>
      have hEq : s = t := Option.some.inj hRun
      exact hEq ▸ hInv
  | cons l ls ih =>
      rcases run_cons_eq_some hRun with
        ⟨s', hTake, hRest⟩
      exact ih (hStep s l ls s' hInv hMeets.1 hTake)
        (hMeets.2 s' hTake) hRest

/-
  A property kept by every step that meets the condition
  holds at the end of every run that meets it.
-/
theorem run_invariant
    {Cond : σ → ℓ → Prop}
    (Inv : σ → Prop)
    (hStep :
      ∀ s l s', Inv s → Cond s l →
        step s l = some s' → Inv s')
    {s t : σ}
    {ls : List ℓ}
    (hInv : Inv s)
    (hMeets : Meets step Cond s ls)
    (hRun : run step s ls = some t) :
    Inv t :=
  run_invariant_rest (fun s _ => Inv s)
    (fun s l _ s' => hStep s l s') hInv hMeets hRun

/- Steps that may always be taken make up a run. -/
theorem exists_run
    {Cond : ℓ → Prop}
    (Inv : σ → Prop)
    (hStep :
      ∀ s l, Inv s → Cond l →
        ∃ s', step s l = some s' ∧ Inv s')
    {s : σ}
    {ls : List ℓ}
    (hInv : Inv s)
    (hCond : ∀ l ∈ ls, Cond l) :
    ∃ t, run step s ls = some t ∧ Inv t := by
  induction ls generalizing s with
  | nil => exact ⟨s, rfl, hInv⟩
  | cons l ls ih =>
      rcases hStep s l hInv (hCond l List.mem_cons_self) with
        ⟨s', hTake, hNext⟩
      rw [run_cons_of_step hTake]
      exact
        ih hNext fun l' hMem =>
          hCond l' (List.mem_cons_of_mem _ hMem)

/- A condition that each label ensures is met. -/
theorem meets_of_forall
    (Cond : σ → ℓ → Prop)
    (s : σ)
    {ls : List ℓ}
    (hCond : ∀ l ∈ ls, ∀ s, Cond s l) :
    Meets step Cond s ls := by
  induction ls generalizing s with
  | nil => trivial
  | cons l ls ih =>
      refine ⟨hCond l List.mem_cons_self s, ?_⟩
      intro s' _
      apply ih
      intro l' hMem
      exact hCond l' (List.mem_cons_of_mem _ hMem)

/- Two conditions are met together. -/
theorem Meets.and
    {Cond Cond' : σ → ℓ → Prop}
    {s : σ}
    {ls : List ℓ}
    (hMeets : Meets step Cond s ls)
    (hMeets' : Meets step Cond' s ls) :
    Meets step (fun s l => Cond s l ∧ Cond' s l) s ls := by
  induction ls generalizing s with
  | nil => trivial
  | cons l ls ih =>
      refine ⟨⟨hMeets.1, hMeets'.1⟩, ?_⟩
      intro s' hTake
      exact ih (hMeets.2 s' hTake) (hMeets'.2 s' hTake)

/- The condition holds where a later step is taken. -/
theorem Meets.at_append
    {Cond : σ → ℓ → Prop}
    {s t : σ}
    {ls ls' : List ℓ}
    {l : ℓ}
    (hMeets : Meets step Cond s (ls ++ l :: ls'))
    (hRun : run step s ls = some t) :
    Cond t l := by
  induction ls generalizing s with
  | nil =>
      have hEq : s = t := Option.some.inj hRun
      rw [← hEq]
      exact hMeets.1
  | cons k ls ih =>
      rcases run_cons_eq_some hRun with
        ⟨s', hTake, hRest⟩
      exact ih (hMeets.2 s' hTake) hRest

/- The first steps of a run meet what the run meets. -/
theorem Meets.of_initial
    {Cond : σ → ℓ → Prop}
    {s : σ}
    {before ls : List ℓ}
    (hMeets : Meets step Cond s ls)
    (hPrefix : before <+: ls) :
    Meets step Cond s before := by
  induction before generalizing s ls with
  | nil => trivial
  | cons l before ih =>
      rcases List.cons_prefix_iff.mp hPrefix with
        ⟨rest, rfl, hRest⟩
      refine ⟨hMeets.1, ?_⟩
      intro s' hTake
      exact ih (hMeets.2 s' hTake) hRest

/- A condition is met that holds wherever a run gets. -/
theorem meets_of_prefixes
    {Cond : σ → ℓ → Prop}
    {s : σ}
    {ls : List ℓ}
    (hCond :
      ∀ before l, before ++ [l] <+: ls →
        ∀ t, run step s before = some t → Cond t l) :
    Meets step Cond s ls := by
  induction ls generalizing s with
  | nil => trivial
  | cons l ls ih =>
      refine ⟨hCond [] l (by simp) s rfl, ?_⟩
      intro s' hTake
      apply ih
      intro before l' hPrefix t hRun
      apply hCond (l :: before) l'
      · simpa using hPrefix
      · simpa [run, hTake] using hRun

/- A concatenation meets a condition part by part. -/
theorem Meets.append
    {Cond : σ → ℓ → Prop}
    {s : σ}
    {ls ls' : List ℓ}
    (hMeets : Meets step Cond s ls)
    (hMeets' :
      ∀ t, run step s ls = some t → Meets step Cond t ls') :
    Meets step Cond s (ls ++ ls') := by
  induction ls generalizing s with
  | nil => exact hMeets' s rfl
  | cons l ls ih =>
      refine ⟨hMeets.1, ?_⟩
      intro s' hTake
      apply ih (hMeets.2 s' hTake)
      intro t hRun
      apply hMeets'
      simpa [run, hTake] using hRun

/- An invariant that gives a second condition. -/
theorem Meets.of_invariant
    {Cond Cond' : σ → ℓ → Prop}
    (Inv : σ → Prop)
    (hStep :
      ∀ s l s', Inv s → Cond s l →
        step s l = some s' → Inv s')
    (hCond : ∀ s l, Inv s → Cond s l → Cond' s l)
    {s : σ}
    {ls : List ℓ}
    (hInv : Inv s)
    (hMeets : Meets step Cond s ls) :
    Meets step Cond' s ls := by
  induction ls generalizing s with
  | nil => trivial
  | cons l ls ih =>
      refine ⟨hCond s l hInv hMeets.1, ?_⟩
      intro s' hTake
      exact
        ih (hStep s l s' hInv hMeets.1 hTake)
          (hMeets.2 s' hTake)

/- A condition is met by a run that checks it. -/
theorem meets_of_checked
    {check : σ → ℓ → Bool}
    {s t : σ}
    {ls : List ℓ}
    (hRun :
      run
        (fun s l =>
          if check s l then
            step s l
          else
            none) s ls = some t) :
    Meets step (fun s l => check s l = true) s ls := by
  induction ls generalizing s with
  | nil => trivial
  | cons l ls ih =>
      rcases run_cons_eq_some hRun with
        ⟨s', hTake, hRest⟩
      split at hTake
      · rename_i hCheck
        refine ⟨hCheck, ?_⟩
        intro s'' hTake'
        rw [hTake] at hTake'
        cases hTake'
        exact ih hRest
      · cases hTake

end Machine
