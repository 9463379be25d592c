import Kron.Embedded.Engine
import Kron.Lib.BinaryHeap

/-
  The heap of scheduled timers, as it is built on the heap
  of the standard library.

  An account of a run counts what was pushed, removed and
  popped, so that the heap can be compared with what it has
  to hold. The engine is modelled with lists of entries; a
  heap represents the list with the same entries.

  Key definitions include:
    * `Kron.Heap.TimerHeap`
    * `Kron.Heap.TimerHeap.popDue`
    * `Kron.Heap.TimerHeap.removeTimer`
    * `Kron.Heap.Account`
    * `Kron.Heap.run`

  Key theorems include:
    * `Kron.Heap.TimerHeap.popDue_spec`
    * `Kron.Heap.run_exact`
    * `Kron.Heap.heap_accounting`
    * `Kron.Heap.run_represents`
-/

------------------------------------------------------------
-- Operations
------------------------------------------------------------

namespace Kron

/- Entries compare by their time only. -/
def ScheduledTimer.cmp
    (a b : ScheduledTimer) : Ordering :=
  compare a.nextRunAt b.nextRunAt

instance ScheduledTimer.transCmp :
    Std.TransCmp ScheduledTimer.cmp where
  eq_swap := Std.OrientedOrd.eq_swap
  isLE_trans := Std.TransOrd.isLE_trans

namespace Heap

open BinaryHeap (Reverse)

/- The order in which the earliest entry is the greatest. -/
abbrev entryCmp :
    Reverse ScheduledTimer →
      Reverse ScheduledTimer → Ordering :=
  Reverse.cmp ScheduledTimer.cmp

theorem entryCmp_isLE_iff
    {a b : Reverse ScheduledTimer} :
    (entryCmp a b).isLE ↔
      b.value.nextRunAt ≤ a.value.nextRunAt :=
  Int.isLE_compare

variable (Q : BinaryHeap (Reverse ScheduledTimer) entryCmp)

structure TimerHeap where
  inner : Q.Heap

namespace TimerHeap

def new : TimerHeap Q :=
  ⟨Q.new⟩

variable {Q}
variable (heap : TimerHeap Q)

def push
    (entry : ScheduledTimer) : TimerHeap Q :=
  ⟨Q.push heap.inner ⟨entry⟩⟩

/- The nearest deadline. -/
def peekNextAt : Option DateTime :=
  (Q.peek heap.inner).map fun entry =>
    entry.value.nextRunAt

/- The due entries; `none` where `unwrap` panics. -/
def popDue
    (now : DateTime) :
    Option (List ScheduledTimer × TimerHeap Q) :=
  (Q.popWhile (fun entry => entry.value.nextRunAt ≤ now)
    heap.inner).map fun popped =>
      (popped.1.map Reverse.value, ⟨popped.2⟩)

/- Rebuild the heap without the entries of a timer. -/
def removeTimer
    (id : TimerId) : TimerHeap Q :=
  let drained := Q.drain heap.inner
  let kept :=
    drained.1.filter fun entry => entry.value.timerId ≠ id
  ⟨Q.extend drained.2 kept⟩

/- What the heap holds. -/
def entries : Multiset ScheduledTimer :=
  (Q.items heap.inner).map Reverse.value

end TimerHeap

end Heap

end Kron

------------------------------------------------------------
-- What Each Operation Does
------------------------------------------------------------

namespace Kron

namespace Heap

open BinaryHeap (Reverse)

namespace TimerHeap

variable {Q : BinaryHeap (Reverse ScheduledTimer) entryCmp}
variable {heap : TimerHeap Q}

@[simp] theorem entries_new :
    (new Q).entries = 0 := by
  unfold new entries
  rw [Q.items_new, Multiset.map_zero]

@[simp] theorem entries_push
    {entry : ScheduledTimer} :
    (heap.push entry).entries = entry ::ₘ heap.entries := by
  unfold push entries
  rw [Q.items_push, Multiset.map_cons]

@[simp] theorem entries_removeTimer
    {id : TimerId} :
    (heap.removeTimer id).entries =
      heap.entries.filter fun entry =>
        entry.timerId ≠ id := by
  rcases Q.items_drain heap.inner with ⟨hDrained, hEmpty⟩
  unfold removeTimer entries
  rw [Q.items_extend, hEmpty, zero_add, Multiset.filter_map,
    ← hDrained, Multiset.filter_coe]
  simp

/- The due entries come in the order of their times. -/
theorem popDue_spec
    (heap : TimerHeap Q)
    (now : DateTime) :
    ∃ due rest,
      heap.popDue now = some (due, rest) ∧
        due.Pairwise
          (fun a b => a.nextRunAt ≤ b.nextRunAt) ∧
        (due : Multiset ScheduledTimer) =
          heap.entries.filter
            (fun entry => entry.nextRunAt ≤ now) ∧
        rest.entries =
          heap.entries.filter
            (fun entry => ¬ entry.nextRunAt ≤ now) := by
  have hUp :
      ∀ a b : Reverse ScheduledTimer,
        (entryCmp a b).isLE →
          decide (a.value.nextRunAt ≤ now) = true →
            decide (b.value.nextRunAt ≤ now) = true := by
    intro a b hCmp hDue
    have hLe := entryCmp_isLE_iff.mp hCmp
    have hNow := of_decide_eq_true hDue
    exact decide_eq_true (hLe.trans hNow)
  rcases Q.popWhile_spec hUp heap.inner with
    ⟨popped, rest, hPop, hOrder, hPopped, hRest⟩
  refine
    ⟨popped.map Reverse.value, ⟨rest⟩, ?_, ?_, ?_, ?_⟩
  · unfold popDue
    rw [hPop]
    rfl
  · rw [List.pairwise_map]
    exact hOrder.imp fun hCmp => entryCmp_isLE_iff.mp hCmp
  · rw [← Multiset.map_coe, hPopped, entries,
      Multiset.filter_map]
    simp
  · unfold entries
    rw [hRest, Multiset.filter_map]
    simp

/- The nearest deadline is the least time of an entry. -/
theorem peekNextAt_eq_some_iff
    {t : DateTime} :
    heap.peekNextAt = some t ↔
      IsLeast {t | ∃ entry ∈ heap.entries,
        entry.nextRunAt = t} t := by
  have hPeeked :
      ∀ top, Q.peek heap.inner = some top →
        IsLeast {t | ∃ entry ∈ heap.entries,
          entry.nextRunAt = t} top.value.nextRunAt := by
    intro top hPeek
    rcases Q.peek_greatest heap.inner top hPeek with
      ⟨hMem, hGreatest⟩
    refine ⟨⟨_, Multiset.mem_map_of_mem _ hMem, rfl⟩, ?_⟩
    rintro _ ⟨entry, hEntry, rfl⟩
    rcases Multiset.mem_map.mp hEntry with ⟨b, hb, rfl⟩
    exact entryCmp_isLE_iff.mp (hGreatest b hb)
  constructor
  · intro hPeek
    rcases Option.map_eq_some_iff.mp hPeek with
      ⟨top, hTop, rfl⟩
    exact hPeeked top hTop
  · intro hLeast
    cases hPeek : Q.peek heap.inner with
    | none =>
        rcases hLeast.1 with ⟨entry, hEntry, _⟩
        unfold entries at hEntry
        rw [Q.peek_eq_none heap.inner hPeek] at hEntry
        exact absurd hEntry (Multiset.notMem_zero entry)
    | some top =>
        unfold peekNextAt
        rw [hPeek, (hPeeked top hPeek).unique hLeast |>.symm]
        rfl

theorem peekNextAt_eq_none_iff :
    heap.peekNextAt = none ↔ heap.entries = 0 := by
  unfold peekNextAt entries
  rw [Option.map_eq_none_iff, Multiset.map_eq_zero]
  constructor
  · exact Q.peek_eq_none heap.inner
  · intro hItems
    cases hPeek : Q.peek heap.inner with
    | none => rfl
    | some top =>
        have hMem := (Q.peek_greatest heap.inner top hPeek).1
        rw [hItems] at hMem
        exact absurd hMem (Multiset.notMem_zero top)

end TimerHeap

end Heap

end Kron

------------------------------------------------------------
-- Accounting
------------------------------------------------------------

namespace Kron

namespace Heap

open BinaryHeap (Reverse)

inductive Op where
| push (entry : ScheduledTimer)
| removeTimer (id : TimerId)
| popDue (now : DateTime)

/- What was pushed, removed, and returned by `pop_due`. -/
structure Account where
  pushed : Multiset ScheduledTimer
  removed : Multiset ScheduledTimer
  popped : Multiset ScheduledTimer

namespace Account

def empty : Account where
  pushed := 0
  removed := 0
  popped := 0

/- What was pushed and neither removed nor popped. -/
def remaining
    (account : Account) : Multiset ScheduledTimer :=
  account.pushed - (account.removed + account.popped)

end Account

variable {Q : BinaryHeap (Reverse ScheduledTimer) entryCmp}

/- An operation on the heap, put into the account. -/
def step
    (s : TimerHeap Q × Account) :
    Op → Option (TimerHeap Q × Account)
| .push entry =>
    some
      (s.1.push entry,
        { s.2 with pushed := entry ::ₘ s.2.pushed })
| .removeTimer id =>
    some
      (s.1.removeTimer id,
        { s.2 with
          removed :=
            s.2.removed +
              s.2.remaining.filter fun entry =>
                entry.timerId = id })
| .popDue now =>
    (s.1.popDue now).map fun popped =>
      (popped.2, { s.2 with popped := s.2.popped + popped.1 })

/- A sequence of operations on a new heap. -/
def run
    (Q : BinaryHeap (Reverse ScheduledTimer) entryCmp)
    (ops : List Op) : Option (TimerHeap Q × Account) :=
  ops.foldlM step (TimerHeap.new Q, Account.empty)

/- Every entry is held, removed or popped exactly once. -/
def Exact
    (s : TimerHeap Q × Account) : Prop :=
  s.2.pushed = s.1.entries + (s.2.removed + s.2.popped)

variable {s : TimerHeap Q × Account}

theorem Exact.remaining_eq
    (hExact : Exact s) :
    s.2.remaining = s.1.entries := by
  unfold Account.remaining
  rw [hExact]
  exact Multiset.add_sub_cancel_right

/- Entries are those that pass a test and those that do not. -/
private theorem filter_add_filter
    {p q : ScheduledTimer → Prop}
    [DecidablePred p]
    [DecidablePred q]
    (hNot : ∀ entry, q entry ↔ ¬ p entry)
    (entries : Multiset ScheduledTimer) :
    entries.filter p + entries.filter q = entries := by
  rw [Multiset.filter_congr fun entry _ => hNot entry]
  exact Multiset.filter_add_not p entries

/- No operation panics, loses or doubles an entry. -/
theorem step_exact
    (hExact : Exact s)
    (op : Op) :
    ∃ s', step s op = some s' ∧ Exact s' := by
  cases op with
  | push entry =>
      refine ⟨_, rfl, ?_⟩
      unfold Exact
      rw [TimerHeap.entries_push, Multiset.cons_add, ← hExact]
  | removeTimer id =>
      refine ⟨_, rfl, ?_⟩
      have hSplit :
          s.1.entries.filter (fun e => e.timerId = id) +
              s.1.entries.filter (fun e => e.timerId ≠ id) =
            s.1.entries :=
        filter_add_filter (fun _ => Iff.rfl) _
      unfold Exact
      rw [TimerHeap.entries_removeTimer, hExact.remaining_eq]
      conv_lhs => rw [hExact, ← hSplit]
      dsimp only
      abel
  | popDue now =>
      rcases s.1.popDue_spec now with
        ⟨due, rest, hPop, _, hDue, hRest⟩
      refine ⟨(rest, _), by rw [step, hPop]; rfl, ?_⟩
      have hSplit :
          s.1.entries.filter (fun e => e.nextRunAt ≤ now) +
              s.1.entries.filter
                (fun e => ¬ e.nextRunAt ≤ now) =
            s.1.entries :=
        filter_add_filter (fun _ => Iff.rfl) _
      unfold Exact
      rw [hRest, hDue]
      conv_lhs => rw [hExact, ← hSplit]
      dsimp only
      abel

theorem foldlM_exact
    (hExact : Exact s)
    (ops : List Op) :
    ∃ s', ops.foldlM step s = some s' ∧ Exact s' := by
  induction ops generalizing s with
  | nil => exact ⟨s, rfl, hExact⟩
  | cons op ops ih =>
      rcases step_exact hExact op with ⟨s₁, hStep, hExact₁⟩
      rcases ih hExact₁ with ⟨s', hRun, hExact'⟩
      refine ⟨s', ?_, hExact'⟩
      rw [List.foldlM_cons, hStep]
      exact hRun

/- Every run of operations keeps an exact account. -/
theorem run_exact
    (Q : BinaryHeap (Reverse ScheduledTimer) entryCmp)
    (ops : List Op) :
    ∃ s, run Q ops = some s ∧ Exact s := by
  apply foldlM_exact
  unfold Exact
  simp [Account.empty]

end Heap

end Kron

------------------------------------------------------------
-- What Every Run Gives
------------------------------------------------------------

namespace Kron

namespace Heap

open BinaryHeap (Reverse)

/-
  After any run, `pop_due` returns the due part of what was
  pushed and neither removed nor popped, in the order of its
  times, and `peek_next_at` is the least time of it.
-/
theorem heap_accounting
    (Q : BinaryHeap (Reverse ScheduledTimer) entryCmp)
    (ops : List Op) :
    ∃ heap account,
      run Q ops = some (heap, account) ∧
        account.removed + account.popped ≤ account.pushed ∧
        (∀ now, ∃ due rest,
          heap.popDue now = some (due, rest) ∧
            due.Pairwise
              (fun a b => a.nextRunAt ≤ b.nextRunAt) ∧
            (due : Multiset ScheduledTimer) =
              account.remaining.filter
                (fun entry => entry.nextRunAt ≤ now)) ∧
        (∀ t,
          heap.peekNextAt = some t ↔
            IsLeast {t | ∃ entry ∈ account.remaining,
              entry.nextRunAt = t} t) ∧
        (heap.peekNextAt = none ↔ account.remaining = 0) := by
  rcases run_exact Q ops with ⟨⟨heap, account⟩, hRun, hExact⟩
  have hRemaining : account.remaining = heap.entries :=
    hExact.remaining_eq
  refine ⟨heap, account, hRun, ?_, ?_, ?_, ?_⟩
  · have hPushed :
        account.pushed =
          heap.entries + (account.removed + account.popped) :=
      hExact
    rw [hPushed]
    exact Multiset.le_add_left _ _
  · intro now
    rcases heap.popDue_spec now with
      ⟨due, rest, hPop, hOrder, hDue, _⟩
    rw [hRemaining]
    exact ⟨due, rest, hPop, hOrder, hDue⟩
  · intro t
    rw [hRemaining]
    exact TimerHeap.peekNextAt_eq_some_iff
  · rw [hRemaining]
    exact TimerHeap.peekNextAt_eq_none_iff

/- Three entries of two timers, one of them removed. -/
example :
    (run (BinaryHeap.sorted entryCmp)
        [.push ⟨"b", second 9, none, 1⟩,
          .push ⟨"a", second 7, none, 1⟩,
          .push ⟨"b", second 8, some "r", 2⟩,
          .removeTimer "a"]).bind
        (fun s => s.1.peekNextAt) =
      some (second 8) := by
  rfl

end Heap

end Kron

------------------------------------------------------------
-- The Heap Of The Engine
------------------------------------------------------------

namespace Kron

namespace Heap

open BinaryHeap (Reverse)

variable {Q : BinaryHeap (Reverse ScheduledTimer) entryCmp}

/- The engine's list has the entries of the heap. -/
def Represents
    (heap : TimerHeap Q)
    (list : Kron.TimerHeap) : Prop :=
  heap.entries = (list : Multiset ScheduledTimer)

variable {heap : TimerHeap Q}
variable {list : Kron.TimerHeap}

theorem Represents.new :
    Represents (TimerHeap.new Q) [] :=
  TimerHeap.entries_new

theorem Represents.push
    (hList : Represents heap list)
    (entry : ScheduledTimer) :
    Represents (heap.push entry) (list.push entry) := by
  unfold Represents
  rw [TimerHeap.entries_push, hList]
  rfl

theorem Represents.removeTimer
    (hList : Represents heap list)
    (id : TimerId) :
    Represents (heap.removeTimer id)
      (list.removeTimer id) := by
  unfold Represents Kron.TimerHeap.removeTimer
  rw [TimerHeap.entries_removeTimer, hList,
    Multiset.filter_coe]

/- Both pop the same entries, the heap by their times. -/
theorem Represents.popDue
    (hList : Represents heap list)
    (now : DateTime) :
    ∃ due rest,
      heap.popDue now = some (due, rest) ∧
        due.Perm (list.popDue now).1 ∧
        Represents rest (list.popDue now).2 := by
  rcases heap.popDue_spec now with
    ⟨due, rest, hPop, _, hDue, hRest⟩
  unfold Kron.TimerHeap.popDue
  rw [List.partition_eq_filter_filter]
  refine ⟨due, rest, hPop, ?_, ?_⟩
  · rw [hList, Multiset.filter_coe] at hDue
    exact Multiset.coe_eq_coe.mp hDue
  · unfold Represents
    rw [hRest, hList, Multiset.filter_coe]
    congr 1
    apply List.filter_congr
    intro entry _
    exact decide_not

/- An operation on the list of the engine. -/
def listStep
    (list : Kron.TimerHeap) : Op → Kron.TimerHeap
| .push entry => list.push entry
| .removeTimer id => list.removeTimer id
| .popDue now => (list.popDue now).2

/- Heap and list stay together over every run. -/
theorem run_represents
    (Q : BinaryHeap (Reverse ScheduledTimer) entryCmp)
    (ops : List Op) :
    ∃ heap account,
      run Q ops = some (heap, account) ∧
        Represents heap (ops.foldl listStep []) := by
  have hFold :
      ∀ (s : TimerHeap Q × Account) (list : Kron.TimerHeap),
        Represents s.1 list →
          ∃ s', ops.foldlM step s = some s' ∧
            Represents s'.1 (ops.foldl listStep list) := by
    induction ops with
    | nil => exact fun s list hList => ⟨s, rfl, hList⟩
    | cons op ops ih =>
        intro s list hList
        have hStep :
            ∃ s₁, step s op = some s₁ ∧
              Represents s₁.1 (listStep list op) := by
          cases op with
          | push entry => exact ⟨_, rfl, hList.push entry⟩
          | removeTimer id =>
              exact ⟨_, rfl, hList.removeTimer id⟩
          | popDue now =>
              rcases hList.popDue now with
                ⟨due, rest, hPop, _, hRest⟩
              exact
                ⟨(rest, _), by rw [step, hPop]; rfl, hRest⟩
        rcases hStep with ⟨s₁, hStep, hList₁⟩
        rcases ih s₁ _ hList₁ with ⟨s', hRun, hList'⟩
        refine ⟨s', ?_, hList'⟩
        rw [List.foldlM_cons, hStep]
        exact hRun
  rcases hFold (TimerHeap.new Q, Account.empty) []
      Represents.new with
    ⟨s, hRun, hList⟩
  exact ⟨s.1, s.2, hRun, hList⟩

end Heap

end Kron
