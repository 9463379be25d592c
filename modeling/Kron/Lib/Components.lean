import Kron.Lib.Machine

/-
  Machines that split into components.

  A label may be addressed to one component of the state. A
  machine splits when a label moves the component it is
  addressed to by a step of that component alone, and leaves
  every other component as it is. A run then gives each
  component the run of its own labels, in their order, so
  that two runs that keep the order of each component's
  labels end in the same components.

  Key definitions include:
    * `Components.addressed`
    * `Components.Splits`

  Key theorems include:
    * `Components.run_component`
    * `Components.run_isSome_of_components`
    * `Components.run_map_view_eq`
-/

------------------------------------------------------------
-- Splitting
------------------------------------------------------------

namespace Components

variable {σ ℓ κ ν : Type}

/- The labels of one component, in order. -/
def addressed
    [DecidableEq κ]
    (key : ℓ → Option κ)
    (k : κ)
    (ls : List ℓ) : List ℓ :=
  ls.filter fun l => key l = some k

/-
  In states with the invariant, allowed labels act on their
  own component only, and those of no component always act.
-/
structure Splits
    (step : σ → ℓ → Option σ)
    (key : ℓ → Option κ)
    (view : κ → σ → ν)
    (part : κ → ν → ℓ → Option ν)
    (Inv : σ → Prop)
    (Allowed : ℓ → Prop) : Prop where
  keeps :
    ∀ s l s', Inv s → Allowed l → step s l = some s' →
      Inv s'
  own :
    ∀ s l k, Inv s → Allowed l → key l = some k →
      (step s l).map (view k) = part k (view k s) l
  other :
    ∀ s l s' k, Inv s → Allowed l → key l ≠ some k →
      step s l = some s' → view k s' = view k s
  free :
    ∀ s l, Inv s → Allowed l → key l = none →
      (step s l).isSome

end Components

------------------------------------------------------------
-- Runs Of Components
------------------------------------------------------------

namespace Components

variable {σ ℓ κ ν : Type}
variable [DecidableEq κ]
variable {step : σ → ℓ → Option σ}
variable {key : ℓ → Option κ}
variable {view : κ → σ → ν}
variable {part : κ → ν → ℓ → Option ν}
variable {Inv : σ → Prop}
variable {Allowed : ℓ → Prop}

theorem addressed_cons_own
    {k : κ}
    {l : ℓ}
    (hKey : key l = some k)
    (ls : List ℓ) :
    addressed key k (l :: ls) = l :: addressed key k ls :=
  List.filter_cons_of_pos (by simp [hKey])

theorem addressed_cons_other
    {k : κ}
    {l : ℓ}
    (hKey : key l ≠ some k)
    (ls : List ℓ) :
    addressed key k (l :: ls) = addressed key k ls :=
  List.filter_cons_of_neg (by simp [hKey])

/- A run takes a component through its own labels. -/
theorem run_component
    (hSplits : Splits step key view part Inv Allowed)
    (k : κ)
    {s t : σ}
    {ls : List ℓ}
    (hInv : Inv s)
    (hAllowed : ∀ l ∈ ls, Allowed l)
    (hRun : Machine.run step s ls = some t) :
    Machine.run (part k) (view k s) (addressed key k ls) =
      some (view k t) := by
  induction ls generalizing s with
  | nil =>
      have hEq : s = t := Option.some.inj hRun
      rw [hEq]
      rfl
  | cons l ls ih =>
      rcases Machine.run_cons_eq_some hRun with
        ⟨s', hStep, hRest⟩
      have hl := hAllowed l List.mem_cons_self
      have hTail :=
        ih (hSplits.keeps s l s' hInv hl hStep)
          (fun l' hMem =>
            hAllowed l' (List.mem_cons_of_mem _ hMem))
          hRest
      by_cases hKey : key l = some k
      · have hOwn := hSplits.own s l k hInv hl hKey
        rw [hStep] at hOwn
        rw [addressed_cons_own hKey, Machine.run, ← hOwn]
        exact hTail
      · rw [hSplits.other s l s' k hInv hl hKey hStep]
          at hTail
        rw [addressed_cons_other hKey]
        exact hTail

/- A run goes through when every component's run does. -/
theorem run_isSome_of_components
    (hSplits : Splits step key view part Inv Allowed)
    {s : σ}
    {ls : List ℓ}
    (hInv : Inv s)
    (hAllowed : ∀ l ∈ ls, Allowed l)
    (hParts :
      ∀ k,
        (Machine.run (part k) (view k s)
          (addressed key k ls)).isSome) :
    (Machine.run step s ls).isSome := by
  induction ls generalizing s with
  | nil => rfl
  | cons l ls ih =>
      have hl := hAllowed l List.mem_cons_self
      have hStep : (step s l).isSome := by
        cases hKey : key l with
        | none => exact hSplits.free s l hInv hl hKey
        | some k =>
            -- the component takes the step first
            have hPart := hParts k
            have hOwn := hSplits.own s l k hInv hl hKey
            rw [addressed_cons_own hKey, Machine.run]
              at hPart
            cases hTake : step s l with
            | some s' => rfl
            | none =>
                rw [hTake] at hOwn
                rw [← hOwn] at hPart
                cases hPart
      rcases Option.isSome_iff_exists.mp hStep with
        ⟨s', hTake⟩
      rw [Machine.run, hTake]
      apply ih (hSplits.keeps s l s' hInv hl hTake)
        (fun l' hMem =>
          hAllowed l' (List.mem_cons_of_mem _ hMem))
      intro k
      have hPart := hParts k
      by_cases hKey : key l = some k
      · have hOwn := hSplits.own s l k hInv hl hKey
        rw [hTake] at hOwn
        rw [addressed_cons_own hKey, Machine.run, ← hOwn]
          at hPart
        exact hPart
      · rw [hSplits.other s l s' k hInv hl hKey hTake]
        rw [addressed_cons_other hKey] at hPart
        exact hPart

/-
  Runs that keep the order of each component's labels end in
  the same components, or none of them goes through.
-/
theorem run_map_view_eq
    (hSplits : Splits step key view part Inv Allowed)
    {s : σ}
    {ls ls' : List ℓ}
    (hInv : Inv s)
    (hAllowed : ∀ l ∈ ls, Allowed l)
    (hAllowed' : ∀ l ∈ ls', Allowed l)
    (hSame :
      ∀ k, addressed key k ls = addressed key k ls')
    (k : κ) :
    (Machine.run step s ls).map (view k) =
      (Machine.run step s ls').map (view k) := by
  cases hRun : Machine.run step s ls with
  | some t =>
      have hComponent :
          ∀ k,
            Machine.run (part k) (view k s)
              (addressed key k ls') = some (view k t) := by
        intro k
        rw [← hSame k]
        exact run_component hSplits k hInv hAllowed hRun
      have hSome :=
        run_isSome_of_components hSplits hInv hAllowed'
          (fun k => by rw [hComponent k]; rfl)
      rcases Option.isSome_iff_exists.mp hSome with
        ⟨t', hRun'⟩
      have hEnd :=
        run_component hSplits k hInv hAllowed' hRun'
      rw [hComponent k] at hEnd
      rw [hRun', Option.map_some, Option.map_some, hEnd]
  | none =>
      cases hRun' : Machine.run step s ls' with
      | none => rfl
      | some t' =>
          have hSome :=
            run_isSome_of_components hSplits hInv hAllowed
              (fun k => by
                rw [hSame k,
                  run_component hSplits k hInv hAllowed'
                    hRun']
                rfl)
          rw [hRun] at hSome
          cases hSome

end Components
