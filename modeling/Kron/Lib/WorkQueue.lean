import Mathlib

/-
  Work queues with fencing tokens.

  A ticket lets its holder work on a resource. It is queued,
  given out and given back, or taken away and queued again
  under a new token. A queue that is lost keeps what is held
  and the last token given out of each resource.

  Key definitions include:
    * `WorkQueue.Ticket`
    * `WorkQueue.Queue`
    * `WorkQueue.Step`
    * `WorkQueue.Exclusive`
    * `WorkQueue.Restored`
    * `WorkQueue.Current`
    * `WorkQueue.Fenced`
    * `WorkQueue.Recorded`
    * `WorkQueue.Within`
    * `WorkQueue.lastToken`
    * `WorkQueue.Queue.lost`

  Key theorems include:
    * `WorkQueue.exclusive_step`
    * `WorkQueue.current_step`
    * `WorkQueue.fenced_step`
    * `WorkQueue.fenced_lost`
    * `WorkQueue.fenced_steps`
    * `WorkQueue.within_steps`
-/

------------------------------------------------------------
-- Queues
------------------------------------------------------------

namespace WorkQueue

variable {ρ ι : Type}

structure Ticket (ρ ι : Type) where
  resource : ρ
  id : ι
  token : Nat
deriving DecidableEq

/-
  The tickets that wait, those that are held, by id, and the
  last token that was made for each resource.
-/
@[ext]
structure Queue (ρ ι : Type) where
  queued : List (Ticket ρ ι)
  held : ι → Option (Ticket ρ ι)
  token : ρ → Nat

namespace Queue

variable [DecidableEq ρ] [DecidableEq ι]

/- A queue without tickets. -/
def empty : Queue ρ ι where
  queued := []
  held := fun _ => none
  token := fun _ => 0

/- No ticket of the resource is held. -/
def NotHeld
    (q : Queue ρ ι)
    (r : ρ) : Prop :=
  ∀ i t, q.held i = some t → t.resource ≠ r

/- No ticket of the resource is queued. -/
def NotQueued
    (q : Queue ρ ι)
    (r : ρ) : Prop :=
  ∀ t ∈ q.queued, t.resource ≠ r

/- Queue a ticket, whose token becomes the last one. -/
def enqueue
    (q : Queue ρ ι)
    (t : Ticket ρ ι) : Queue ρ ι :=
  { q with
    queued := q.queued ++ [t]
    token := Function.update q.token t.resource t.token }

/- The ticket with this id is not held any more. -/
def release
    (q : Queue ρ ι)
    (i : ι) : Queue ρ ι :=
  { q with held := Function.update q.held i none }

/- The tickets `rest` stay queued, and `t` is held. -/
def give
    (q : Queue ρ ι)
    (rest : List (Ticket ρ ι))
    (t : Ticket ρ ι) : Queue ρ ι :=
  { q with
    queued := rest
    held := Function.update q.held t.id (some t) }

end Queue

/- A ticket that is known to be held, with its token. -/
def Queue.restore
    [DecidableEq ρ] [DecidableEq ι]
    (q : Queue ρ ι)
    (t : Ticket ρ ι) : Queue ρ ι :=
  { q with
    held := Function.update q.held t.id (some t)
    token := Function.update q.token t.resource t.token }

/-
  One change of a queue, with the tickets it gives out.
  `next` makes the token after a token.
-/
inductive Step
    [DecidableEq ρ] [DecidableEq ι]
    (next : Nat → Nat)
    (q : Queue ρ ι) :
    List (Ticket ρ ι) → Queue ρ ι → Prop
| offer (t : Ticket ρ ι)
    (hNotQueued : q.NotQueued t.resource)
    (hNotHeld : q.NotHeld t.resource)
    (hToken : t.token = next (q.token t.resource)) :
    Step next q [] (q.enqueue t)
| retry (t old : Ticket ρ ι) (i : ι)
    (hHeld : q.held i = some old)
    (hResource : t.resource = old.resource)
    (hToken : t.token = next (q.token t.resource)) :
    Step next q [] ((q.release i).enqueue t)
| give (before after : List (Ticket ρ ι))
    (t : Ticket ρ ι)
    (hQueued : q.queued = before ++ t :: after) :
    Step next q [t] (q.give (before ++ after) t)
| finish (i : ι) :
    Step next q [] (q.release i)

/- Any number of changes that give nothing out. -/
def Steps
    [DecidableEq ρ] [DecidableEq ι]
    (next : Nat → Nat) :
    Queue ρ ι → Queue ρ ι → Prop :=
  Relation.ReflTransGen fun q q' => Step next q [] q'

end WorkQueue

------------------------------------------------------------
-- One Ticket For Each Resource
------------------------------------------------------------

namespace WorkQueue

variable {ρ ι : Type}

/- A resource has one ticket, queued or held, at most. -/
structure Exclusive
    (q : Queue ρ ι) : Prop where
  queued : (q.queued.map Ticket.resource).Nodup
  held :
    ∀ i j t u,
      q.held i = some t → q.held j = some u →
        t.resource = u.resource → i = j
  apart : ∀ t ∈ q.queued, q.NotHeld t.resource

variable [DecidableEq ρ] [DecidableEq ι]
variable {next : Nat → Nat}
variable {q q' : Queue ρ ι}

omit [DecidableEq ρ] [DecidableEq ι] in
theorem exclusive_empty :
    Exclusive (Queue.empty : Queue ρ ι) := by
  refine ⟨List.nodup_nil, ?_, ?_⟩
  · intro i j t u hHeld
    cases hHeld
  · intro t hMem
    cases hMem

omit [DecidableEq ρ] [DecidableEq ι] in
/- The resource of a ticket that is held is not queued. -/
theorem Exclusive.notQueued_of_held
    (hExclusive : Exclusive q)
    {i : ι}
    {t : Ticket ρ ι}
    (hHeld : q.held i = some t) :
    q.NotQueued t.resource := by
  intro u hMem hEq
  exact hExclusive.apart u hMem i t hHeld hEq.symm

omit [DecidableEq ρ] in
theorem held_release_eq_some
    {i j : ι}
    {t : Ticket ρ ι}
    (hHeld : (q.release i).held j = some t) :
    j ≠ i ∧ q.held j = some t := by
  by_cases hEq : j = i
  · subst hEq
    simp [Queue.release] at hHeld
  · refine ⟨hEq, ?_⟩
    simpa [Queue.release, hEq] using hHeld

omit [DecidableEq ρ] in
/- Giving a ticket back frees its resource. -/
theorem Exclusive.notHeld_release
    (hExclusive : Exclusive q)
    {i : ι}
    {t : Ticket ρ ι}
    (hHeld : q.held i = some t) :
    (q.release i).NotHeld t.resource := by
  intro j u hOther hEq
  rcases held_release_eq_some hOther with ⟨hNe, hGet⟩
  exact hNe (hExclusive.held j i u t hGet hHeld hEq)

omit [DecidableEq ρ] in
theorem Exclusive.release
    (hExclusive : Exclusive q)
    (i : ι) :
    Exclusive (q.release i) := by
  refine ⟨hExclusive.queued, ?_, ?_⟩
  · intro j k t u hHeld hHeld' hEq
    exact
      hExclusive.held j k t u
        (held_release_eq_some hHeld).2
        (held_release_eq_some hHeld').2 hEq
  · intro t hMem j u hHeld
    exact
      hExclusive.apart t hMem j u
        (held_release_eq_some hHeld).2

omit [DecidableEq ι] in
theorem Exclusive.enqueue
    (hExclusive : Exclusive q)
    {t : Ticket ρ ι}
    (hNotQueued : q.NotQueued t.resource)
    (hNotHeld : q.NotHeld t.resource) :
    Exclusive (q.enqueue t) := by
  refine ⟨?_, hExclusive.held, ?_⟩
  · show ((q.queued ++ [t]).map Ticket.resource).Nodup
    rw [List.map_append, List.nodup_append]
    refine ⟨hExclusive.queued, by simp, ?_⟩
    intro r hMem s hSingle hEq
    rcases List.mem_map.mp hMem with ⟨u, hQueued, hRes⟩
    rw [List.map_singleton, List.mem_singleton] at hSingle
    exact hNotQueued u hQueued (by rw [hRes, hEq, hSingle])
  · intro u hMem
    rcases List.mem_append.mp hMem with hOld | hNew
    · exact hExclusive.apart u hOld
    · rw [List.mem_singleton] at hNew
      subst hNew
      exact hNotHeld

omit [DecidableEq ρ] [DecidableEq ι] in
/- A queued ticket is the only one queued. -/
theorem Exclusive.ne_of_queued
    (hExclusive : Exclusive q)
    {before after : List (Ticket ρ ι)}
    {t u : Ticket ρ ι}
    (hQueued : q.queued = before ++ t :: after)
    (hMem : u ∈ before ++ after) :
    u.resource ≠ t.resource := by
  have hNodup := hExclusive.queued
  rw [hQueued, List.map_append, List.map_cons] at hNodup
  have hNot :=
    (List.nodup_cons.mp
      (List.nodup_middle.mp hNodup)).1
  rw [← List.map_append] at hNot
  intro hEq
  exact hNot (hEq ▸ List.mem_map_of_mem hMem)

omit [DecidableEq ρ] in
theorem held_give_cases
    {rest : List (Ticket ρ ι)}
    {t u : Ticket ρ ι}
    {i : ι}
    (hHeld : (q.give rest t).held i = some u) :
    (i = t.id ∧ u = t) ∨ (i ≠ t.id ∧ q.held i = some u) := by
  by_cases hEq : i = t.id
  · subst hEq
    left
    simpa [Queue.give, eq_comm] using hHeld
  · right
    refine ⟨hEq, ?_⟩
    simpa [Queue.give, hEq] using hHeld

omit [DecidableEq ρ] in
theorem Exclusive.give
    (hExclusive : Exclusive q)
    {before after : List (Ticket ρ ι)}
    {t : Ticket ρ ι}
    (hQueued : q.queued = before ++ t :: after) :
    Exclusive (q.give (before ++ after) t) := by
  have hMem : t ∈ q.queued := by
    rw [hQueued]
    simp
  have hFree := hExclusive.apart t hMem
  refine ⟨?_, ?_, ?_⟩
  · have hNodup := hExclusive.queued
    rw [hQueued, List.map_append, List.map_cons] at hNodup
    have hRest :=
      (List.nodup_cons.mp (List.nodup_middle.mp hNodup)).2
    rwa [← List.map_append] at hRest
  · intro i j u v hHeld hHeld' hEq
    rcases held_give_cases hHeld with
      ⟨rfl, rfl⟩ | ⟨_, hOld⟩
    · rcases held_give_cases hHeld' with
        ⟨rfl, rfl⟩ | ⟨_, hOld'⟩
      · rfl
      · exact absurd hEq.symm (hFree j v hOld')
    · rcases held_give_cases hHeld' with
        ⟨rfl, rfl⟩ | ⟨_, hOld'⟩
      · exact absurd hEq (hFree i u hOld)
      · exact hExclusive.held i j u v hOld hOld' hEq
  · intro u hRest i v hHeld
    rcases held_give_cases hHeld with
      ⟨rfl, rfl⟩ | ⟨_, hOld⟩
    · exact (hExclusive.ne_of_queued hQueued hRest).symm
    · apply hExclusive.apart u _ i v hOld
      rw [hQueued]
      rcases List.mem_append.mp hRest with hB | hA
      · exact List.mem_append_left _ hB
      · exact
          List.mem_append_right _
            (List.mem_cons_of_mem _ hA)

/- No change gives a resource a second ticket. -/
theorem exclusive_step
    {given : List (Ticket ρ ι)}
    (hExclusive : Exclusive q)
    (hStep : Step next q given q') :
    Exclusive q' := by
  cases hStep with
  | offer t hNotQueued hNotHeld =>
      exact hExclusive.enqueue hNotQueued hNotHeld
  | retry t old i hHeld hResource =>
      apply (hExclusive.release i).enqueue
      · rw [hResource]
        exact hExclusive.notQueued_of_held hHeld
      · rw [hResource]
        exact hExclusive.notHeld_release hHeld
  | give before after t hQueued =>
      exact hExclusive.give hQueued
  | finish i =>
      exact hExclusive.release i

theorem exclusive_steps
    (hExclusive : Exclusive q)
    (hSteps : Steps next q q') :
    Exclusive q' := by
  induction hSteps with
  | refl => exact hExclusive
  | tail _ hStep ih => exact exclusive_step ih hStep

end WorkQueue

------------------------------------------------------------
-- Queues Put Together From What Is Held
------------------------------------------------------------

namespace WorkQueue

variable {ρ ι : Type}

/- Nothing waits, and what is held carries the last token. -/
structure Restored
    (q : Queue ρ ι) : Prop where
  exclusive : Exclusive q
  queued : q.queued = []
  held :
    ∀ i t, q.held i = some t → t.token = q.token t.resource

theorem restored_empty :
    Restored (Queue.empty : Queue ρ ι) := by
  refine ⟨exclusive_empty, rfl, ?_⟩
  intro i t hHeld
  cases hHeld

variable [DecidableEq ρ] [DecidableEq ι]
variable {q : Queue ρ ι}

omit [DecidableEq ρ] in
theorem Restored.release
    (hRestored : Restored q)
    (i : ι) :
    Restored (q.release i) := by
  refine
    ⟨hRestored.exclusive.release i, hRestored.queued, ?_⟩
  intro j t hHeld
  exact hRestored.held j t (held_release_eq_some hHeld).2

theorem Restored.restore
    (hRestored : Restored q)
    {t : Ticket ρ ι}
    (hNotHeld : q.NotHeld t.resource) :
    Restored (q.restore t) := by
  have hCases :
      ∀ i u, (q.restore t).held i = some u →
        (i = t.id ∧ u = t) ∨
          (i ≠ t.id ∧ q.held i = some u) := by
    intro i u hHeld
    have hGive : (q.give [] t).held i = some u := hHeld
    exact held_give_cases hGive
  refine ⟨⟨?_, ?_, ?_⟩, hRestored.queued, ?_⟩
  · exact hRestored.exclusive.queued
  · intro i j u v hHeld hHeld' hEq
    rcases hCases i u hHeld with ⟨rfl, rfl⟩ | ⟨_, hOld⟩
    · rcases hCases j v hHeld' with ⟨rfl, rfl⟩ | ⟨_, hOld'⟩
      · rfl
      · exact absurd hEq.symm (hNotHeld j v hOld')
    · rcases hCases j v hHeld' with ⟨rfl, rfl⟩ | ⟨_, hOld'⟩
      · exact absurd hEq (hNotHeld i u hOld)
      · exact
          hRestored.exclusive.held i j u v hOld hOld' hEq
  · intro u hMem
    have hEmpty : q.queued = [] := hRestored.queued
    have hNil : u ∈ q.queued := hMem
    rw [hEmpty] at hNil
    cases hNil
  · intro i u hHeld
    rcases hCases i u hHeld with ⟨rfl, rfl⟩ | ⟨_, hOld⟩
    · simp [Queue.restore]
    · have hNe := hNotHeld i u hOld
      simpa [Queue.restore, hNe] using
        hRestored.held i u hOld

end WorkQueue

------------------------------------------------------------
-- Tickets With The Last Token
------------------------------------------------------------

namespace WorkQueue

variable {ρ ι : Type}

/- What is queued or held carries the last token. -/
structure Current
    (q : Queue ρ ι) : Prop where
  queued : ∀ t ∈ q.queued, t.token = q.token t.resource
  held :
    ∀ i t, q.held i = some t → t.token = q.token t.resource

theorem Restored.current
    {q : Queue ρ ι}
    (hRestored : Restored q) :
    Current q := by
  refine ⟨?_, hRestored.held⟩
  intro t hMem
  rw [hRestored.queued] at hMem
  cases hMem

variable [DecidableEq ρ] [DecidableEq ι]
variable {next : Nat → Nat}
variable {q q' : Queue ρ ι}

omit [DecidableEq ρ] in
theorem Current.release
    (hCurrent : Current q)
    (i : ι) :
    Current (q.release i) := by
  refine ⟨hCurrent.queued, ?_⟩
  intro j t hHeld
  exact hCurrent.held j t (held_release_eq_some hHeld).2

omit [DecidableEq ι] in
/- A new token belongs to the only ticket of its resource. -/
theorem Current.enqueue
    (hCurrent : Current q)
    {t : Ticket ρ ι}
    (hNotQueued : q.NotQueued t.resource)
    (hNotHeld : q.NotHeld t.resource) :
    Current (q.enqueue t) := by
  constructor
  · intro u hMem
    rcases List.mem_append.mp hMem with hOld | hNew
    · have hNe := hNotQueued u hOld
      simpa [Queue.enqueue, hNe] using hCurrent.queued u hOld
    · rw [List.mem_singleton] at hNew
      subst hNew
      simp [Queue.enqueue]
  · intro i u hHeld
    have hNe := hNotHeld i u hHeld
    simpa [Queue.enqueue, hNe] using hCurrent.held i u hHeld

omit [DecidableEq ρ] in
theorem Current.give
    (hCurrent : Current q)
    {before after : List (Ticket ρ ι)}
    {t : Ticket ρ ι}
    (hQueued : q.queued = before ++ t :: after) :
    Current (q.give (before ++ after) t) := by
  constructor
  · intro u hMem
    apply hCurrent.queued u
    rw [hQueued]
    rcases List.mem_append.mp hMem with hB | hA
    · exact List.mem_append_left _ hB
    · exact
        List.mem_append_right _ (List.mem_cons_of_mem _ hA)
  · intro i u hHeld
    rcases held_give_cases hHeld with
      ⟨rfl, rfl⟩ | ⟨_, hOld⟩
    · apply hCurrent.queued u
      rw [hQueued]
      simp
    · exact hCurrent.held i u hOld

/- Tokens stay the last ones, whatever token comes next. -/
theorem current_step
    {given : List (Ticket ρ ι)}
    (hExclusive : Exclusive q)
    (hCurrent : Current q)
    (hStep : Step next q given q') :
    Current q' := by
  cases hStep with
  | offer t hNotQueued hNotHeld =>
      exact hCurrent.enqueue hNotQueued hNotHeld
  | retry t old i hHeld hResource =>
      apply (hCurrent.release i).enqueue
      · rw [hResource]
        exact hExclusive.notQueued_of_held hHeld
      · rw [hResource]
        exact hExclusive.notHeld_release hHeld
  | give before after t hQueued =>
      exact hCurrent.give hQueued
  | finish i =>
      exact hCurrent.release i

theorem current_steps
    (hExclusive : Exclusive q)
    (hCurrent : Current q)
    (hSteps : Steps next q q') :
    Current q' := by
  induction hSteps with
  | refl => exact hCurrent
  | tail hSteps hStep ih =>
      exact
        current_step (exclusive_steps hExclusive hSteps) ih
          hStep

end WorkQueue

------------------------------------------------------------
-- Tokens Only Grow
------------------------------------------------------------

namespace WorkQueue

variable {ρ ι : Type}
variable [DecidableEq ρ]

/- The last token that was given out of a resource. -/
def lastToken
    (given : List (Ticket ρ ι))
    (r : ρ) : Nat :=
  given.foldl
    (fun last t => if t.resource = r then t.token else last)
    0

/- Each ticket given out carries a larger token. -/
def Increasing
    (given : List (Ticket ρ ι)) : Prop :=
  given.Pairwise fun t u =>
    t.resource = u.resource → t.token < u.token

/-
  The tickets given out carry growing tokens, and what is
  queued or held carries the last token of its resource,
  which is later than any given out, if it is queued.
-/
structure Fenced
    (given : List (Ticket ρ ι))
    (q : Queue ρ ι) : Prop where
  increasing : Increasing given
  top :
    ∀ t ∈ given, t.token ≤ lastToken given t.resource
  bound : ∀ r, lastToken given r ≤ q.token r
  queued :
    ∀ t ∈ q.queued,
      t.token = q.token t.resource ∧
        lastToken given t.resource < t.token
  held :
    ∀ i t, q.held i = some t → t.token = q.token t.resource

/- What is held was given out last. -/
def Recorded
    (given : List (Ticket ρ ι))
    (q : Queue ρ ι) : Prop :=
  ∀ i t, q.held i = some t →
    lastToken given t.resource = t.token

/- Nothing has been given out of a restored queue. -/
theorem Restored.fenced
    {q : Queue ρ ι}
    (hRestored : Restored q) :
    Fenced [] q := by
  refine
    ⟨List.Pairwise.nil, ?_, fun r => Nat.zero_le _, ?_,
      hRestored.held⟩
  · intro t hMem
    cases hMem
  · intro t hMem
    rw [hRestored.queued] at hMem
    cases hMem

/- A queue that is lost: what is held stays held. -/
def Queue.lost
    (q : Queue ρ ι)
    (given : List (Ticket ρ ι)) : Queue ρ ι where
  queued := []
  held := q.held
  token := lastToken given

theorem lastToken_concat
    (given : List (Ticket ρ ι))
    (t : Ticket ρ ι)
    (r : ρ) :
    lastToken (given ++ [t]) r =
      if t.resource = r then t.token else lastToken given r := by
  unfold lastToken
  rw [List.foldl_append]
  rfl

variable {next : Nat → Nat}
variable {given : List (Ticket ρ ι)}
variable {q q' : Queue ρ ι}

theorem Exclusive.lost
    (hExclusive : Exclusive q) :
    Exclusive (q.lost given) := by
  refine ⟨List.nodup_nil, hExclusive.held, ?_⟩
  intro t hMem
  cases hMem

/- Tokens still grow after a queue is lost. -/
theorem fenced_lost
    (hFenced : Fenced given q)
    (hRecorded : Recorded given q) :
    Fenced given (q.lost given) := by
  refine
    ⟨hFenced.increasing, hFenced.top, fun r => Nat.le_refl _,
      ?_, ?_⟩
  · intro t hMem
    cases hMem
  · intro i t hHeld
    exact (hRecorded i t hHeld).symm

theorem lastToken_concat_of_ne
    {t : Ticket ρ ι}
    {r : ρ}
    (hNe : r ≠ t.resource) :
    lastToken (given ++ [t]) r = lastToken given r := by
  rw [lastToken_concat, if_neg hNe.symm]

variable [DecidableEq ι]

theorem Fenced.release
    (hFenced : Fenced given q)
    (i : ι) :
    Fenced given (q.release i) := by
  refine
    ⟨hFenced.increasing, hFenced.top, hFenced.bound,
      hFenced.queued, ?_⟩
  intro j t hHeld
  exact hFenced.held j t (held_release_eq_some hHeld).2

omit [DecidableEq ι] in
/- A ticket under a later token may be queued. -/
theorem Fenced.enqueue
    (hFenced : Fenced given q)
    {t : Ticket ρ ι}
    (hNotQueued : q.NotQueued t.resource)
    (hNotHeld : q.NotHeld t.resource)
    (hToken : q.token t.resource < t.token) :
    Fenced given (q.enqueue t) := by
  have hBound := hFenced.bound t.resource
  refine ⟨hFenced.increasing, hFenced.top, ?_, ?_, ?_⟩
  · intro r
    by_cases hEq : r = t.resource
    · subst hEq
      simp only [Queue.enqueue, Function.update_self]
      omega
    · simpa [Queue.enqueue, hEq] using hFenced.bound r
  · intro u hMem
    rcases List.mem_append.mp hMem with hOld | hNew
    · have hNe := hNotQueued u hOld
      simpa [Queue.enqueue, hNe] using hFenced.queued u hOld
    · rw [List.mem_singleton] at hNew
      subst hNew
      refine ⟨by simp [Queue.enqueue], ?_⟩
      omega
  · intro i u hHeld
    have hNe := hNotHeld i u hHeld
    simpa [Queue.enqueue, hNe] using hFenced.held i u hHeld

/- The ticket given out carries the largest token so far. -/
theorem Fenced.give
    (hFenced : Fenced given q)
    (hExclusive : Exclusive q)
    {before after : List (Ticket ρ ι)}
    {t : Ticket ρ ι}
    (hQueued : q.queued = before ++ t :: after) :
    Fenced (given ++ [t]) (q.give (before ++ after) t) := by
  have hMem : t ∈ q.queued := by
    rw [hQueued]
    simp
  rcases hFenced.queued t hMem with ⟨hToken, hLast⟩
  refine ⟨?_, ?_, ?_, ?_, ?_⟩
  · refine List.pairwise_append.mpr
      ⟨hFenced.increasing, by simp, ?_⟩
    intro u hGiven v hSingle hEq
    rw [List.mem_singleton] at hSingle
    subst hSingle
    have hTop := hFenced.top u hGiven
    rw [hEq] at hTop
    omega
  · intro u hGiven
    rw [lastToken_concat]
    rcases List.mem_append.mp hGiven with hOld | hNew
    · have hTop := hFenced.top u hOld
      split
      · rename_i hEq
        rw [← hEq] at hTop
        omega
      · exact hTop
    · rw [List.mem_singleton] at hNew
      subst hNew
      simp
  · intro r
    rw [lastToken_concat]
    split
    · rename_i hEq
      subst hEq
      exact Nat.le_of_eq hToken
    · exact hFenced.bound r
  · intro u hRest
    have hNe := hExclusive.ne_of_queued hQueued hRest
    have hOld : u ∈ q.queued := by
      rw [hQueued]
      rcases List.mem_append.mp hRest with hB | hA
      · exact List.mem_append_left _ hB
      · exact
          List.mem_append_right _
            (List.mem_cons_of_mem _ hA)
    rw [lastToken_concat_of_ne hNe]
    exact hFenced.queued u hOld
  · intro i u hHeld
    rcases held_give_cases hHeld with
      ⟨rfl, rfl⟩ | ⟨_, hOld⟩
    · exact hToken
    · exact hFenced.held i u hOld

theorem Recorded.give
    (hRecorded : Recorded given q)
    (hExclusive : Exclusive q)
    {before after : List (Ticket ρ ι)}
    {t : Ticket ρ ι}
    (hQueued : q.queued = before ++ t :: after) :
    Recorded (given ++ [t]) (q.give (before ++ after) t) := by
  have hMem : t ∈ q.queued := by
    rw [hQueued]
    simp
  intro i u hHeld
  rcases held_give_cases hHeld with
    ⟨rfl, rfl⟩ | ⟨_, hOld⟩
  · rw [lastToken_concat, if_pos rfl]
  · have hNe := hExclusive.apart t hMem i u hOld
    rw [lastToken_concat_of_ne hNe]
    exact hRecorded i u hOld

/- Every change keeps what is held recorded. -/
theorem recorded_step
    {more : List (Ticket ρ ι)}
    (hExclusive : Exclusive q)
    (hRecorded : Recorded given q)
    (hStep : Step next q more q') :
    Recorded (given ++ more) q' := by
  cases hStep with
  | offer t =>
      rw [List.append_nil]
      exact hRecorded
  | retry t old i =>
      rw [List.append_nil]
      intro j u hHeld
      exact hRecorded j u (held_release_eq_some hHeld).2
  | give before after t hQueued =>
      exact hRecorded.give hExclusive hQueued
  | finish i =>
      rw [List.append_nil]
      intro j u hHeld
      exact hRecorded j u (held_release_eq_some hHeld).2

/- Every change keeps the tokens growing. -/
theorem fenced_step
    {more : List (Ticket ρ ι)}
    (hNext :
      ∀ r, q.NotQueued r → q.token r < next (q.token r))
    (hExclusive : Exclusive q)
    (hFenced : Fenced given q)
    (hStep : Step next q more q') :
    Fenced (given ++ more) q' := by
  cases hStep with
  | offer t hNotQueued hNotHeld hToken =>
      rw [List.append_nil]
      apply hFenced.enqueue hNotQueued hNotHeld
      rw [hToken]
      exact hNext t.resource hNotQueued
  | retry t old i hHeld hResource hToken =>
      rw [List.append_nil]
      have hNotQueued :=
        hExclusive.notQueued_of_held hHeld
      rw [← hResource] at hNotQueued
      apply (hFenced.release i).enqueue hNotQueued
      · rw [hResource]
        exact hExclusive.notHeld_release hHeld
      · rw [hToken]
        exact hNext t.resource hNotQueued
  | give before after t hQueued =>
      exact hFenced.give hExclusive hQueued
  | finish i =>
      rw [List.append_nil]
      exact hFenced.release i

end WorkQueue

------------------------------------------------------------
-- How Far Tokens Get
------------------------------------------------------------

namespace WorkQueue

variable {ρ ι : Type}
variable [DecidableEq ρ]

/-
  Tokens are at most `n`, or one more while a ticket is
  queued. Where no ticket is given out between, every
  resource gets one new token at most.
-/
def Within
    (n : Nat)
    (q : Queue ρ ι) : Prop :=
  ∀ r, q.token r ≤ n + 1 ∧ (q.NotQueued r → q.token r ≤ n)

variable {n : Nat}
variable {q q' : Queue ρ ι}

omit [DecidableEq ρ] in
theorem within_of_le
    (hLe : ∀ r, q.token r ≤ n) :
    Within n q :=
  fun r => ⟨Nat.le_succ_of_le (hLe r), fun _ => hLe r⟩

theorem Within.enqueue
    (hWithin : Within n q)
    {t : Ticket ρ ι}
    (hNotQueued : q.NotQueued t.resource)
    (hToken : t.token ≤ q.token t.resource + 1) :
    Within n (q.enqueue t) := by
  intro r
  have hOld := (hWithin t.resource).2 hNotQueued
  by_cases hEq : r = t.resource
  · subst hEq
    constructor
    · simp only [Queue.enqueue, Function.update_self]
      omega
    · intro hNot
      exact absurd rfl (hNot t (by simp [Queue.enqueue]))
  · have hRest := hWithin r
    constructor
    · simpa [Queue.enqueue, hEq] using hRest.1
    · intro hNot
      have hSame : q.NotQueued r := by
        intro u hMem
        exact hNot u (List.mem_append_left _ hMem)
      simpa [Queue.enqueue, hEq] using hRest.2 hSame

variable [DecidableEq ι]
variable {next : Nat → Nat}

theorem within_step
    (hNext : ∀ k, next k ≤ k + 1)
    (hExclusive : Exclusive q)
    (hWithin : Within n q)
    (hStep : Step next q [] q') :
    Within n q' := by
  cases hStep with
  | offer t hNotQueued hNotHeld hToken =>
      apply hWithin.enqueue hNotQueued
      rw [hToken]
      exact hNext _
  | retry t old i hHeld hResource hToken =>
      have hNotQueued :=
        hExclusive.notQueued_of_held hHeld
      rw [← hResource] at hNotQueued
      apply Within.enqueue (q := q.release i) hWithin
        hNotQueued
      rw [hToken]
      exact hNext _
  | finish i =>
      exact hWithin

/-
  A section that gives nothing out keeps what a step keeps,
  and makes one new token for each resource at most.
-/
theorem within_steps
    (hNext : ∀ k, next k ≤ k + 1)
    (hExclusive : Exclusive q)
    (hWithin : Within n q)
    (hSteps : Steps next q q') :
    Within n q' := by
  induction hSteps with
  | refl => exact hWithin
  | tail hSteps hStep ih =>
      exact
        within_step hNext (exclusive_steps hExclusive hSteps)
          ih hStep

theorem recorded_steps
    {given : List (Ticket ρ ι)}
    (hExclusive : Exclusive q)
    (hRecorded : Recorded given q)
    (hSteps : Steps next q q') :
    Recorded given q' := by
  induction hSteps with
  | refl => exact hRecorded
  | tail hSteps hStep ih =>
      have hKept :=
        recorded_step (exclusive_steps hExclusive hSteps) ih
          hStep
      rwa [List.append_nil] at hKept

/- Tokens grow in a section while they are in range. -/
theorem fenced_steps
    {given : List (Ticket ρ ι)}
    (hNext : ∀ k, next k ≤ k + 1)
    (hGrows : ∀ k, k ≤ n → k < next k)
    (hExclusive : Exclusive q)
    (hWithin : Within n q)
    (hFenced : Fenced given q)
    (hSteps : Steps next q q') :
    Fenced given q' := by
  induction hSteps with
  | refl => exact hFenced
  | tail hSteps hStep ih =>
      have hMiddle := exclusive_steps hExclusive hSteps
      have hBound :=
        within_steps hNext hExclusive hWithin hSteps
      have hKept :=
        fenced_step
          (fun r hNotQueued =>
            hGrows _ ((hBound r).2 hNotQueued))
          hMiddle ih hStep
      rwa [List.append_nil] at hKept

end WorkQueue
