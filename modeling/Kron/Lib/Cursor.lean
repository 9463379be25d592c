import Kron.Lib.Digits

/-
  Reading bytes with an offset, where a slice can be out of
  range.

  A checked computation gives a value, an error, or a panic.
  It is compared with one that works on the bytes after the
  offset and cannot panic.

  Key definitions include:
    * `Cursor.Checked`
    * `Cursor.slice`
    * `Cursor.addUsize`
    * `Cursor.Agrees`
    * `Cursor.AtOffset`
    * `Cursor.Gives`
    * `Cursor.Fails`

  Key theorems include:
    * `Cursor.Agrees.bind`
    * `Cursor.slice_eq`
    * `Cursor.gives_bind_iff`
    * `Cursor.fails_bind_iff`
-/

------------------------------------------------------------
-- Checked Computations
------------------------------------------------------------

namespace Cursor

variable {ε α β α' β' : Type}

/- A value, an error, or `none` for a panic. -/
abbrev Checked (ε α : Type) :=
  ExceptT ε Option α

def panicked : Checked ε α :=
  ExceptT.mk none

/- An addition of `usize` that must not overflow. -/
def addUsize
    (a b : Nat) : Checked ε Nat :=
  if a + b < 2 ^ 64 then
    pure (a + b)
  else
    panicked

/- A subtraction of `usize` that must not overflow. -/
def subUsize
    (a b : Nat) : Checked ε Nat :=
  if b ≤ a then
    pure (a - b)
  else
    panicked

/- The bytes from `lo` to `hi`, which must be a range. -/
def slice
    (bytes : Bytes)
    (lo hi : Nat) : Checked ε Bytes :=
  if lo ≤ hi ∧ hi ≤ bytes.length then
    pure ((bytes.take hi).drop lo)
  else
    panicked

/-
  A checked computation does not panic, and gives the same
  error or a related value.
-/
def Agrees
    (R : α → β → Prop)
    (checked : Checked ε α)
    (result : Except ε β) : Prop :=
  match result with
  | .error e => checked.run = some (.error e)
  | .ok b => ∃ a, checked.run = some (.ok a) ∧ R a b

/- A value with an offset, and it with the bytes after. -/
def AtOffset
    (bytes : Bytes)
    (atOffset : α × Nat)
    (rest : α × Bytes) : Prop :=
  atOffset.1 = rest.1 ∧
    rest.2 = bytes.drop atOffset.2 ∧
    atOffset.2 ≤ bytes.length

variable {R : α → β → Prop}
variable {S : α' → β' → Prop}

theorem Agrees.pure
    {a : α}
    {b : β}
    (hRel : R a b) :
    Agrees R (Pure.pure a : Checked ε α) (.ok b) :=
  ⟨a, rfl, hRel⟩

theorem Agrees.throw
    (R : α → β → Prop)
    (e : ε) :
    Agrees R (MonadExcept.throw e : Checked ε α)
      (.error e) :=
  rfl

/- Agreement step by step. -/
theorem Agrees.bind
    {checked : Checked ε α}
    {result : Except ε β}
    {f : α → Checked ε α'}
    {g : β → Except ε β'}
    (hFirst : Agrees R checked result)
    (hRest : ∀ a b, R a b → Agrees S (f a) (g b)) :
    Agrees S (checked >>= f) (result >>= g) := by
  cases result with
  | error e =>
      have hRun : checked.run = some (.error e) := hFirst
      change (checked >>= f).run = some (.error e)
      rw [ExceptT.run_bind, hRun]
      rfl
  | ok b =>
      rcases hFirst with ⟨a, hRun, hRel⟩
      have hBind : (checked >>= f).run = (f a).run := by
        rw [ExceptT.run_bind, hRun]
        rfl
      have hNext := hRest a b hRel
      unfold Agrees at hNext ⊢
      rw [hBind]
      exact hNext

theorem addUsize_eq
    {a b : Nat}
    (hLt : a + b < 2 ^ 64) :
    (addUsize a b : Checked ε Nat) = pure (a + b) :=
  if_pos hLt

theorem subUsize_eq
    {a b : Nat}
    (hLe : b ≤ a) :
    (subUsize a b : Checked ε Nat) = pure (a - b) :=
  if_pos hLe

/- A range in the bytes is some of those after its start. -/
theorem slice_eq
    {bytes : Bytes}
    {offset n : Nat}
    (hLe : offset + n ≤ bytes.length) :
    (slice bytes offset (offset + n) : Checked ε Bytes) =
      pure ((bytes.drop offset).take n) := by
  unfold slice
  rw [if_pos ⟨by omega, hLe⟩, List.drop_take,
    Nat.add_sub_cancel_left]

end Cursor

------------------------------------------------------------
-- Values And Errors
------------------------------------------------------------

namespace Cursor

variable {ε α β : Type}

/- The computation ends with a value. -/
def Gives
    (checked : Checked ε α)
    (a : α) : Prop :=
  checked.run = some (.ok a)

/- The computation ends with an error. -/
def Fails
    (checked : Checked ε α)
    (e : ε) : Prop :=
  checked.run = some (.error e)

@[simp] theorem gives_pure_iff
    {a b : α} :
    Gives (pure a : Checked ε α) b ↔ a = b := by
  simp [Gives]

@[simp] theorem not_fails_pure
    {a : α}
    {e : ε} :
    ¬ Fails (pure a : Checked ε α) e := by
  simp [Fails]

@[simp] theorem not_gives_throw
    {a : α}
    {e : ε} :
    ¬ Gives (throw e : Checked ε α) a := by
  simp [Gives]

@[simp] theorem fails_throw_iff
    {e e' : ε} :
    Fails (throw e : Checked ε α) e' ↔ e = e' := by
  simp [Fails]

@[simp] theorem not_gives_panicked
    {a : α} :
    ¬ Gives (panicked : Checked ε α) a :=
  nofun

@[simp] theorem not_fails_panicked
    {e : ε} :
    ¬ Fails (panicked : Checked ε α) e :=
  nofun

variable {checked : Checked ε α}
variable {f : α → Checked ε β}

@[simp] theorem gives_bind_iff
    {b : β} :
    Gives (checked >>= f) b ↔
      ∃ a, Gives checked a ∧ Gives (f a) b := by
  unfold Gives
  rw [ExceptT.run_bind]
  cases checked.run with
  | none => simp
  | some result => cases result <;> simp

/- A sequence fails in its first part or in the rest. -/
@[simp] theorem fails_bind_iff
    {e : ε} :
    Fails (checked >>= f) e ↔
      Fails checked e ∨
        ∃ a, Gives checked a ∧ Fails (f a) e := by
  unfold Gives Fails
  rw [ExceptT.run_bind]
  cases checked.run with
  | none => simp
  | some result => cases result <;> simp

variable {g : α → β}

@[simp] theorem gives_map_iff
    {b : β} :
    Gives (g <$> checked) b ↔
      ∃ a, Gives checked a ∧ g a = b := by
  unfold Gives
  rw [ExceptT.run_map]
  cases checked.run with
  | none => simp
  | some result => cases result <;> simp [Except.map]

@[simp] theorem fails_map_iff
    {e : ε} :
    Fails (g <$> checked) e ↔ Fails checked e := by
  unfold Fails
  rw [ExceptT.run_map]
  cases checked.run with
  | none => simp
  | some result => cases result <;> simp [Except.map]

end Cursor
