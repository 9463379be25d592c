import Mathlib

/-
  Binary heaps, known by what their operations do to the
  multiset of their items.

  `peek` and `pop` yield an item that no other exceeds. Which
  of several such items they yield is left open, and the two
  need not agree.

  Key definitions include:
    * `BinaryHeap`
    * `BinaryHeap.Greatest`
    * `BinaryHeap.popWhile`
    * `BinaryHeap.sorted`

  Key theorems include:
    * `BinaryHeap.popWhile_spec`
-/

------------------------------------------------------------
-- Operations
------------------------------------------------------------

/- An item that no other exceeds. -/
def BinaryHeap.Greatest
    {α : Type}
    (cmp : α → α → Ordering)
    (items : Multiset α)
    (a : α) : Prop :=
  a ∈ items ∧ ∀ b ∈ items, (cmp b a).isLE

structure BinaryHeap
    (α : Type)
    (cmp : α → α → Ordering) where
  Heap : Type
  items : Heap → Multiset α
  new : Heap
  push : Heap → α → Heap
  extend : Heap → List α → Heap
  peek : Heap → Option α
  pop : Heap → Option (α × Heap)
  drain : Heap → List α × Heap
  items_new : items new = 0
  items_push :
    ∀ heap a, items (push heap a) = a ::ₘ items heap
  items_extend :
    ∀ heap added,
      items (extend heap added) = items heap + added
  peek_eq_none :
    ∀ heap, peek heap = none → items heap = 0
  peek_greatest :
    ∀ heap a,
      peek heap = some a →
        BinaryHeap.Greatest cmp (items heap) a
  pop_eq_none :
    ∀ heap, pop heap = none → items heap = 0
  pop_greatest :
    ∀ heap a rest,
      pop heap = some (a, rest) →
        BinaryHeap.Greatest cmp (items heap) a ∧
          items heap = a ::ₘ items rest
  items_drain :
    ∀ heap,
      ((drain heap).1 : Multiset α) = items heap ∧
        items (drain heap).2 = 0

namespace BinaryHeap

/- The other order, as `Reverse` of the standard library. -/
structure Reverse (α : Type) where
  value : α
deriving DecidableEq, Repr

def Reverse.cmp
    {α : Type}
    (cmp : α → α → Ordering)
    (a b : Reverse α) : Ordering :=
  cmp b.value a.value

variable {α : Type}
variable {cmp : α → α → Ordering}

instance Reverse.transCmp
    [Std.TransCmp cmp] :
    Std.TransCmp (Reverse.cmp cmp) where
  eq_swap {a b} := by
    have hSwap : cmp b.value a.value = _ :=
      Std.OrientedCmp.eq_swap
    exact hSwap
  isLE_trans {a b c} hab hbc := by
    have hba : (cmp b.value a.value).isLE := hab
    have hcb : (cmp c.value b.value).isLE := hbc
    have hca : (cmp c.value a.value).isLE :=
      Std.TransCmp.isLE_trans hcb hba
    exact hca

/-
  Pop as long as the item at the top passes. The result is
  `none` where `pop` yields nothing after `peek` did.
-/
def popWhile
    (Q : BinaryHeap α cmp)
    (p : α → Bool)
    (heap : Q.Heap) : Option (List α × Q.Heap) :=
  match Q.peek heap with
  | none => some ([], heap)
  | some top =>
      if p top then
        match _hPop : Q.pop heap with
        | none => none
        | some (a, rest) =>
            (popWhile Q p rest).map fun popped =>
              (a :: popped.1, popped.2)
      else
        some ([], heap)
termination_by (Q.items heap).card
decreasing_by
  rw [(Q.pop_greatest heap a rest _hPop).2,
    Multiset.card_cons]
  exact Nat.lt_succ_self _

end BinaryHeap

------------------------------------------------------------
-- Popping While A Test Passes
------------------------------------------------------------

namespace BinaryHeap

variable {α : Type}
variable {cmp : α → α → Ordering}
variable {Q : BinaryHeap α cmp}
variable {p : α → Bool}
variable {heap : Q.Heap}

theorem popWhile_of_top_fails
    (hTop : ∀ top, Q.peek heap = some top → p top = false) :
    Q.popWhile p heap = some ([], heap) := by
  rw [popWhile]
  cases hPeek : Q.peek heap with
  | none => rfl
  | some top => simp [hTop top hPeek]

theorem popWhile_of_top_passes
    {top a : α}
    {rest : Q.Heap}
    (hPeek : Q.peek heap = some top)
    (hTop : p top = true)
    (hPop : Q.pop heap = some (a, rest)) :
    Q.popWhile p heap =
      (Q.popWhile p rest).map fun popped =>
        (a :: popped.1, popped.2) := by
  rw [popWhile, hPeek]
  dsimp only
  rw [if_pos hTop]
  split
  · rename_i hNone
    rw [hPop] at hNone
    cases hNone
  · rename_i a' rest' hSome
    rw [hPop] at hSome
    cases hSome
    rfl

/-
  Where all that exceeds a passing item passes too, the items
  that pass are popped, greatest first, and the others stay.
-/
theorem popWhile_spec
    (hUp :
      ∀ a b, (cmp a b).isLE → p a = true → p b = true)
    (heap : Q.Heap) :
    ∃ popped rest,
      Q.popWhile p heap = some (popped, rest) ∧
        popped.Pairwise (fun a b => (cmp b a).isLE) ∧
        (popped : Multiset α) =
          (Q.items heap).filter (fun a => p a = true) ∧
        Q.items rest =
          (Q.items heap).filter (fun a => ¬ p a = true) := by
  induction hCard : (Q.items heap).card generalizing heap with
  | zero =>
      have hItems : Q.items heap = 0 :=
        Multiset.card_eq_zero.mp hCard
      refine
        ⟨[], heap, popWhile_of_top_fails ?_, .nil, ?_, ?_⟩
      · intro top hPeek
        have hMem := (Q.peek_greatest heap top hPeek).1
        rw [hItems] at hMem
        exact absurd hMem (Multiset.notMem_zero top)
      · rw [hItems]
        rfl
      · rw [hItems]
        rfl
  | succ n ih =>
      have hNonempty : Q.items heap ≠ 0 := by
        rw [← Multiset.card_pos, hCard]
        exact Nat.succ_pos n
      cases hPeek : Q.peek heap with
      | none =>
          exact
            absurd (Q.peek_eq_none heap hPeek) hNonempty
      | some top =>
          have hGreatest := Q.peek_greatest heap top hPeek
          by_cases hTop : p top = true
          · cases hPop : Q.pop heap with
            | none =>
                exact
                  absurd (Q.pop_eq_none heap hPop) hNonempty
            | some popped =>
                rcases popped with ⟨a, rest⟩
                rcases Q.pop_greatest heap a rest hPop with
                  ⟨hPopped, hItems⟩
                have hPasses : p a = true :=
                  hUp top a (hPopped.2 top hGreatest.1) hTop
                have hRest : (Q.items rest).card = n := by
                  rw [hItems, Multiset.card_cons] at hCard
                  omega
                rcases ih rest hRest with
                  ⟨later, final, hLater, hOrder, hPopped',
                    hFinal⟩
                refine ⟨a :: later, final, ?_, ?_, ?_, ?_⟩
                · rw [popWhile_of_top_passes hPeek hTop hPop,
                    hLater]
                  rfl
                · refine List.pairwise_cons.mpr ⟨?_, hOrder⟩
                  intro b hb
                  apply hPopped.2
                  rw [hItems, Multiset.mem_cons]
                  right
                  have hMem : b ∈ (later : Multiset α) := hb
                  rw [hPopped'] at hMem
                  exact Multiset.mem_of_mem_filter hMem
                · rw [hItems, Multiset.filter_cons,
                    if_pos hPasses, ← hPopped']
                  rfl
                · rw [hItems, Multiset.filter_cons,
                    if_neg (not_not_intro hPasses),
                    zero_add, hFinal]
          · have hFails :
                ∀ a ∈ Q.items heap, ¬ p a = true := by
              intro a hMem hPasses
              exact
                hTop
                  (hUp a top (hGreatest.2 a hMem) hPasses)
            refine
              ⟨[], heap, popWhile_of_top_fails ?_, .nil, ?_,
                ?_⟩
            · intro top' hPeek'
              rw [hPeek] at hPeek'
              cases hPeek'
              exact Bool.eq_false_iff.mpr hTop
            · exact (Multiset.filter_eq_nil.mpr hFails).symm
            · exact (Multiset.filter_eq_self.mpr hFails).symm

end BinaryHeap

------------------------------------------------------------
-- Heaps As Sorted Lists
------------------------------------------------------------

namespace BinaryHeap

variable {α : Type}

/- From greater to smaller items. -/
def Descending
    (cmp : α → α → Ordering)
    (a b : α) : Prop :=
  (cmp b a).isLE

variable (cmp : α → α → Ordering)

instance descendingDecidable :
    DecidableRel (Descending cmp) := by
  intro a b
  unfold Descending
  infer_instance

variable [Std.TransCmp cmp]

instance descendingTotal :
    Std.Total (Descending cmp) where
  total a b := by
    unfold Descending
    cases hCmp : cmp b a with
    | lt => exact Or.inl rfl
    | eq => exact Or.inl rfl
    | gt =>
        have hSwap : cmp a b = (cmp b a).swap :=
          Std.OrientedCmp.eq_swap
        right
        rw [hSwap, hCmp]
        rfl

instance descendingTrans :
    IsTrans α (Descending cmp) where
  trans _ _ _ hab hbc := Std.TransCmp.isLE_trans hbc hab

/- The lists whose items descend. -/
abbrev SortedList :=
  {l : List α // l.Pairwise (Descending cmp)}

def SortedList.insert
    (heap : SortedList cmp)
    (a : α) : SortedList cmp :=
  ⟨heap.1.orderedInsert (Descending cmp) a,
    heap.2.orderedInsert a heap.1⟩

theorem SortedList.insert_items
    (heap : SortedList cmp)
    (a : α) :
    ((heap.insert cmp a).1 : Multiset α) =
      a ::ₘ (heap.1 : Multiset α) :=
  Multiset.coe_eq_coe.mpr
    (List.perm_orderedInsert (Descending cmp) a heap.1)

theorem SortedList.foldl_insert_items
    (heap : SortedList cmp)
    (added : List α) :
    ((added.foldl (SortedList.insert cmp) heap).1 :
        Multiset α) =
      (heap.1 : Multiset α) + added := by
  induction added generalizing heap with
  | nil => exact (add_zero _).symm
  | cons a added ih =>
      rw [List.foldl_cons, ih, SortedList.insert_items,
        Multiset.cons_add, ← Multiset.cons_coe,
        Multiset.add_cons]

/- The head of a descending list is a greatest item. -/
theorem Descending.head_greatest
    {a : α}
    {l : List α}
    (hOrder : (a :: l).Pairwise (Descending cmp)) :
    Greatest cmp ((a :: l : List α) : Multiset α) a := by
  refine ⟨List.mem_cons_self, ?_⟩
  intro b hb
  rcases List.mem_cons.mp hb with rfl | hMem
  · exact Std.ReflCmp.isLE_rfl
  · exact List.rel_of_pairwise_cons hOrder hMem

/- A heap that keeps its items in a descending list. -/
def sorted : BinaryHeap α cmp where
  Heap := SortedList cmp
  items heap := heap.1
  new := ⟨[], .nil⟩
  push := SortedList.insert cmp
  extend heap added := added.foldl (SortedList.insert cmp) heap
  peek heap := heap.1.head?
  pop heap :=
    match heap with
    | ⟨[], _⟩ => none
    | ⟨a :: l, hOrder⟩ => some (a, ⟨l, hOrder.of_cons⟩)
  drain heap := (heap.1, ⟨[], .nil⟩)
  items_new := rfl
  items_push := SortedList.insert_items cmp
  items_extend := SortedList.foldl_insert_items cmp
  peek_eq_none heap hPeek := by
    rw [List.head?_eq_none_iff.mp hPeek]
    rfl
  peek_greatest heap a hPeek := by
    rcases heap with ⟨_ | ⟨b, l⟩, hOrder⟩
    · cases hPeek
    · cases hPeek
      exact Descending.head_greatest cmp hOrder
  pop_eq_none heap hPop := by
    rcases heap with ⟨_ | ⟨b, l⟩, hOrder⟩
    · rfl
    · cases hPop
  pop_greatest heap a rest hPop := by
    rcases heap with ⟨_ | ⟨b, l⟩, hOrder⟩
    · cases hPop
    · cases hPop
      exact ⟨Descending.head_greatest cmp hOrder, rfl⟩
  items_drain _ := ⟨rfl, rfl⟩

end BinaryHeap
