import Kron.Lib.BTreeMap

/-
  Directories and crashes.

  A directory maps paths to contents. A program changes it
  by a list of operations, each of which happens as a whole
  or not at all; a crash leaves what some first part of the
  list has done.

  Key definitions include:
    * `FileSystem.Op`
    * `FileSystem.Op.run`
    * `FileSystem.runAll`
    * `FileSystem.crash`

  Key theorems include:
    * `FileSystem.runAll_append`
    * `FileSystem.runAll_get_of_untouched`
    * `FileSystem.runAll_replace_get`
    * `FileSystem.runAll_remove_get`
    * `FileSystem.crash_replace_get`
-/

------------------------------------------------------------
-- Operations
------------------------------------------------------------

namespace FileSystem

/- Files by path. -/
abbrev Directory (κ α : Type) [Ord κ] :=
  BTreeMap κ α

/- What a program does to one file at a time. -/
inductive Op (κ α : Type) where
| write (path : κ) (content : α)
| remove (path : κ)
| rename (source target : κ)
deriving DecidableEq

variable {κ α : Type}
variable [Ord κ] [Std.TransOrd κ]

/-
  The directory after one operation. A missing file is not
  removed or renamed.
-/
def Op.run
    (dir : Directory κ α) :
    Op κ α → Directory κ α
| .write path content => dir.insert path content
| .remove path => dir.erase path
| .rename source target =>
    match dir[source]? with
    | none => dir
    | some content => (dir.erase source).insert target content

/- The directory after several operations. -/
def runAll
    (dir : Directory κ α)
    (ops : List (Op κ α)) : Directory κ α :=
  ops.foldl Op.run dir

/- The directory that a crash after `k` operations leaves. -/
def crash
    (dir : Directory κ α)
    (ops : List (Op κ α))
    (k : Nat) : Directory κ α :=
  runAll dir (ops.take k)

/- Replace a file through a temporary one. -/
def replace
    (tmp path : κ)
    (content : α) : List (Op κ α) :=
  [.write tmp content, .rename tmp path]

/- An operation changes the file at a path. -/
def Op.Touches
    (path : κ) :
    Op κ α → Prop
| .write path' _ => path' = path
| .remove path' => path' = path
| .rename source target => source = path ∨ target = path

end FileSystem

------------------------------------------------------------
-- Files After Operations
------------------------------------------------------------

namespace FileSystem

variable {κ α : Type}
variable [Ord κ] [Std.TransOrd κ]

@[simp] theorem runAll_nil
    (dir : Directory κ α) :
    runAll dir [] = dir := rfl

@[simp] theorem runAll_cons
    (dir : Directory κ α)
    (op : Op κ α)
    (ops : List (Op κ α)) :
    runAll dir (op :: ops) = runAll (op.run dir) ops := rfl

theorem runAll_append
    (dir : Directory κ α)
    (ops ops' : List (Op κ α)) :
    runAll dir (ops ++ ops') =
      runAll (runAll dir ops) ops' := by
  simp [runAll]

variable [Std.LawfulEqOrd κ] [DecidableEq κ]

theorem run_rename_get
    (dir : Directory κ α)
    {source target path : κ}
    {content : α}
    (hSource : dir[source]? = some content) :
    (Op.run dir (.rename source target))[path]? =
      if target = path then some content
      else if source = path then none
      else dir[path]? := by
  simp only [Op.run, hSource, BTreeMap.get_insert,
    BTreeMap.get_erase]

/- An operation keeps the files it does not touch. -/
theorem run_get_of_untouched
    (dir : Directory κ α)
    {op : Op κ α}
    {path : κ}
    (hOther : ¬ op.Touches path) :
    (op.run dir)[path]? = dir[path]? := by
  cases op with
  | write path' content =>
      exact BTreeMap.get_insert_ne _ _ hOther
  | remove path' =>
      exact BTreeMap.get_erase_ne _ hOther
  | rename source target =>
      simp only [Op.Touches, not_or] at hOther
      cases hSource : dir[source]? with
      | none => simp [Op.run, hSource]
      | some content =>
          rw [run_rename_get dir hSource, if_neg hOther.2,
            if_neg hOther.1]

/- Operations keep the files they do not touch. -/
theorem runAll_get_of_untouched
    (dir : Directory κ α)
    {ops : List (Op κ α)}
    {path : κ}
    (hOther : ∀ op ∈ ops, ¬ op.Touches path) :
    (runAll dir ops)[path]? = dir[path]? := by
  induction ops generalizing dir with
  | nil => rfl
  | cons op ops ih =>
      have hRest : ∀ op' ∈ ops, ¬ op'.Touches path := by
        intro op' hMem
        exact hOther op' (List.mem_cons_of_mem _ hMem)
      rw [runAll_cons, ih _ hRest]
      exact
        run_get_of_untouched dir
          (hOther op List.mem_cons_self)

/- Replacing a file leaves no temporary file. -/
theorem runAll_replace_get
    (dir : Directory κ α)
    (tmp target : κ)
    (content : α)
    (path : κ) :
    (runAll dir (replace tmp target content))[path]? =
      if target = path then some content
      else if tmp = path then none
      else dir[path]? := by
  have hSource :
      (Op.run dir (.write tmp content))[tmp]? =
        some content := by
    simp [Op.run]
  simp only [replace, runAll_cons, runAll_nil]
  rw [run_rename_get _ hSource]
  by_cases hTarget : target = path
  · simp [hTarget]
  · by_cases hPath : tmp = path
    · simp [hPath]
    · simp [Op.run, BTreeMap.get_insert, hPath]

/- Files after some have been removed. -/
theorem runAll_remove_get
    (dir : Directory κ α)
    (paths : List κ)
    (path : κ) :
    (runAll dir (paths.map .remove))[path]? =
      if path ∈ paths then none else dir[path]? := by
  induction paths generalizing dir with
  | nil => simp
  | cons p paths ih =>
      rw [List.map_cons, runAll_cons, ih]
      simp only [Op.run, BTreeMap.get_erase,
        List.mem_cons]
      by_cases hHead : path = p
      · simp [hHead]
      · simp [hHead, Ne.symm hHead]

/- A crash leaves a file that is replaced old or new. -/
theorem crash_replace_get
    (dir : Directory κ α)
    {tmp path : κ}
    (content : α)
    {before after : List (Op κ α)}
    (hTmp : tmp ≠ path)
    (hBefore : ∀ op ∈ before, ¬ op.Touches path)
    (hAfter : ∀ op ∈ after, ¬ op.Touches path)
    (k : Nat) :
    (crash dir (before ++ replace tmp path content ++ after)
          k)[path]? = dir[path]? ∨
      (crash dir (before ++ replace tmp path content ++ after)
          k)[path]? = some content := by
  have hTake :
      ∀ (ops : List (Op κ α)) (j : Nat),
        (∀ op ∈ ops, ¬ op.Touches path) →
          ∀ op ∈ ops.take j, ¬ op.Touches path :=
    fun ops j hOps op hOp =>
      hOps op (List.mem_of_mem_take hOp)
  unfold crash
  rw [List.take_append, List.take_append, runAll_append,
    runAll_append,
    runAll_get_of_untouched _ (hTake _ _ hAfter)]
  rcases hSteps : k - before.length with _ | _ | j
  · left
    rw [List.take_zero, runAll_nil]
    exact runAll_get_of_untouched _ (hTake _ _ hBefore)
  · left
    have hWrite :
        ∀ op ∈ (replace tmp path content).take 1,
          ¬ op.Touches path := by
      intro op hOp
      have hEq : op = .write tmp content := by
        simpa [replace] using hOp
      rw [hEq]
      exact hTmp
    rw [runAll_get_of_untouched _ hWrite]
    exact runAll_get_of_untouched _ (hTake _ _ hBefore)
  · right
    have hAll :
        (replace tmp path content).take (j + 1 + 1) =
          replace tmp path content := by
      simp [replace]
    rw [hAll, runAll_replace_get, if_pos rfl]

end FileSystem
