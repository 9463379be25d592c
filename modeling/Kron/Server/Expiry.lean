import Kron.Server.RunIds

/-
  What an expiry removes.

  A scan reads the active runs and writes the expiry of each
  one whose lease has run out; the expiry may commit much
  later. Applying it removes whatever run is then active
  under the id, without a look at its lease. Where run ids
  are drawn once, the run under an id is always the one that
  was claimed with it, so that the expiry meets the run its
  scan read, or none.

  Key definitions include:
    * `Kron.RaftCommand.claimed?`
    * `Kron.ExpiryOf`
    * `Kron.ClaimsOk`
    * `Kron.ExpiresDue`

  Key theorems include:
    * `Kron.claimsOk_call`
    * `Kron.claimsOk_commit`
    * `Kron.expiresDue_of_claimsOk`
    * `Kron.expiries_of_run`
-/

------------------------------------------------------------
-- Claims And Expiries
------------------------------------------------------------

namespace Kron

/- The run that a claim asks for. -/
def RaftCommand.claimed? :
    RaftCommand → Option PersistedActiveRun
| .claimRun timerId runId workerId fencingToken attempt
    leaseDeadline =>
    some
      { timerId := timerId
        runId := runId
        workerId := workerId
        fencingToken := fencingToken
        attempt := attempt
        leaseDeadline := leaseDeadline }
| _ => none

/- The runs that were asked for. -/
def claimed
    (proposed : List Proposal) : List PersistedActiveRun :=
  proposed.filterMap fun p => p.command.claimed?

/- An expiry of a run whose lease has run out. -/
structure ExpiryOf
    (active : PersistedActiveRun)
    (replacement : Option WorkerRun)
    (expiredAt : DateTime) : Prop where
  due : active.leaseDeadline ≤ expiredAt
  timer :
    ∀ run, replacement = some run →
      run.timer = active.timerId
  runId :
    ∀ run, replacement = some run →
      run.runId = active.runId
  attempt :
    ∀ run, replacement = some run →
      run.attempt.toNat = active.attempt.toNat + 1

/- A committed expiry removes a run that is due, or none. -/
def ExpiresDue
    (commit : PersistedStateMachine × Proposal) : Prop :=
  ∀ runId replacement expiredAt,
    commit.2.command =
        .expireRunLease runId replacement expiredAt →
      ∀ active,
        commit.1.activeRuns[runId]? = some active →
          active.runId = runId ∧
            ExpiryOf active replacement expiredAt

/- The run under an id is the one that was claimed. -/
structure ClaimsOk
    (state : PersistedStateMachine)
    (proposed : List Proposal) : Prop where
  unique :
    ∀ a ∈ claimed proposed, ∀ b ∈ claimed proposed,
      a.runId = b.runId → a = b
  active :
    ∀ (runId : RunId) (active : PersistedActiveRun),
      state.activeRuns[runId]? = some active →
        active.runId = runId ∧ active ∈ claimed proposed

/- Claims and expiries in flight are of claimed runs. -/
structure OfClaimed
    (proposed : List Proposal)
    (p : Proposal) : Prop where
  claim :
    ∀ active ∈ p.command.claimed?,
      active ∈ claimed proposed
  expiry :
    ∀ runId replacement expiredAt,
      p.command =
          .expireRunLease runId replacement expiredAt →
        ∃ active ∈ claimed proposed,
          active.runId = runId ∧
            ExpiryOf active replacement expiredAt

end Kron

------------------------------------------------------------
-- Calls
------------------------------------------------------------

namespace Kron

variable {cal : Calendar}
variable {state state' : PersistedStateMachine}
variable {proposed more : List Proposal}
variable {p : Proposal}

theorem claim?_eq_claimed?
    (command : RaftCommand) :
    command.claim? =
      command.claimed?.map fun active =>
        (active.runId, active.timerId) := by
  cases command <;> rfl

theorem mem_claimed_append
    {active : PersistedActiveRun} :
    active ∈ claimed (proposed ++ more) ↔
      active ∈ claimed proposed ∨ active ∈ claimed more := by
  simp only [claimed, List.filterMap_append,
    List.mem_append]

/- A claimed run was drawn with its id. -/
theorem drawn_of_claimed
    {active : PersistedActiveRun}
    (hMem : active ∈ claimed proposed) :
    (active.runId, active.timerId) ∈ drawn proposed := by
  rcases List.mem_filterMap.mp hMem with ⟨p, hp, hClaim⟩
  refine List.mem_filterMap.mpr ⟨p, hp, ?_⟩
  rw [claim?_eq_claimed?, hClaim]
  rfl

/- A call claims at most one run. -/
theorem claimed_proposals
    {call : Call}
    {a b : PersistedActiveRun}
    (ha : a ∈ claimed (proposals cal state call))
    (hb : b ∈ claimed (proposals cal state call)) :
    a = b := by
  rcases List.mem_filterMap.mp ha with ⟨p, hp, hClaim⟩
  rcases List.mem_filterMap.mp hb with ⟨q, hq, hClaim'⟩
  have hDrawn :
      p.command.claim? = some (a.runId, a.timerId) := by
    rw [claim?_eq_claimed?, hClaim]
    rfl
  have hSame : p = q := proposals_claim_eq hp hq hDrawn
  subst hSame
  rw [hClaim] at hClaim'
  exact Option.some.inj hClaim'

/- Fresh draws keep each id with one claim. -/
theorem claimsOk_call
    {s : Cluster}
    {call : Call}
    (hOk : ClaimsOk s.state s.proposed)
    (hFresh : FreshDraw cal s call) :
    ClaimsOk s.state
      (s.proposed ++ proposals cal s.state call) := by
  constructor
  · intro a ha b hb hEq
    rw [mem_claimed_append] at ha hb
    rcases ha with ha | ha
    · rcases hb with hb | hb
      · exact hOk.unique a ha b hb hEq
      · exact
          absurd hEq
            (hFresh _ (drawn_of_claimed hb) _
              (drawn_of_claimed ha))
    · rcases hb with hb | hb
      · exact
          absurd hEq.symm
            (hFresh _ (drawn_of_claimed ha) _
              (drawn_of_claimed hb))
      · exact claimed_proposals ha hb
  · intro runId active hGet
    rcases hOk.active runId active hGet with ⟨hKey, hMem⟩
    exact ⟨hKey, mem_claimed_append.mpr (.inl hMem)⟩

/- An attempt below a limit has a successor. -/
theorem toNat_succ_of_not_le
    {attempt limit : UInt32}
    (hBelow : ¬ limit ≤ attempt) :
    (attempt + 1).toNat = attempt.toNat + 1 := by
  have hLt : attempt.toNat < limit.toNat := by
    simpa [UInt32.le_iff_toNat_le] using hBelow
  have hMax : limit.toNat < 2 ^ 32 := limit.toNat_lt
  rw [UInt32.toNat_add]
  simp only [UInt32.reduceToNat]
  omega

/- A replacement is the next attempt at its run. -/
theorem expiryOf_replacementRun
    {app : RaftAppState}
    {active : PersistedActiveRun}
    {now : DateTime}
    (hDue : active.leaseDeadline ≤ now) :
    ExpiryOf active (replacementRun app active) now := by
  refine ⟨hDue, ?_, ?_, ?_⟩
  · intro run hRun
    exact (replacementRun_eq_some hRun).1
  · intro run hRun
    exact (replacementRun_eq_some hRun).2.1
  · intro run hRun
    unfold replacementRun at hRun
    split at hRun
    · cases hRun
    · rename_i spec hSpec
      split at hRun
      · cases hRun
      · rename_i hBelow
        split at hRun
        · cases hRun
          exact toNat_succ_of_not_le hBelow
        · cases hRun

/- What a call proposes is of claimed runs. -/
theorem ofClaimed_of_proposes
    {s : Cluster}
    {call : Call}
    (hOk : ClaimsOk s.state s.proposed)
    (hMem : p ∈ proposals cal s.state call) :
    OfClaimed
      (s.proposed ++ proposals cal s.state call) p := by
  constructor
  · intro active hClaim
    refine mem_claimed_append.mpr (.inr ?_)
    exact List.mem_filterMap.mpr ⟨p, hMem, hClaim⟩
  · intro runId replacement expiredAt hCommand
    cases proposes_of_mem hMem with
    | expire hActive hDue =>
        rename_i active
        cases hCommand
        rcases hOk.active _ _ hActive with ⟨_, hClaimed⟩
        exact
          ⟨active, mem_claimed_append.mpr (.inl hClaimed),
            rfl, expiryOf_replacementRun hDue⟩
    | _ => cases hCommand

theorem ofClaimed_append
    (hOf : OfClaimed proposed p) :
    OfClaimed (proposed ++ more) p := by
  constructor
  · intro active hClaim
    exact
      mem_claimed_append.mpr (.inl (hOf.claim active hClaim))
  · intro runId replacement expiredAt hCommand
    rcases hOf.expiry _ _ _ hCommand with
      ⟨active, hMem, hExpiry⟩
    exact
      ⟨active, mem_claimed_append.mpr (.inl hMem), hExpiry⟩

end Kron

------------------------------------------------------------
-- Commits
------------------------------------------------------------

namespace Kron

variable {cal : Calendar}
variable {state state' : PersistedStateMachine}
variable {proposed : List Proposal}
variable {p : Proposal}

/- A commit keeps the run under an id the claimed one. -/
theorem claimsOk_commit
    (hOk : ClaimsOk state proposed)
    (hOf : OfClaimed proposed p)
    (hApply :
      applyKronCommand cal state p.command = some state') :
    ClaimsOk state' proposed := by
  refine ⟨hOk.unique, ?_⟩
  intro runId active hGet
  rcases activeRun_cases hApply hGet with
    hBefore | ⟨hKey, hCommand⟩
  · exact hOk.active runId active hBefore
  · exact
      ⟨hKey, hOf.claim active (by rw [hCommand]; rfl)⟩

/- An expiry meets the run that its scan read, or none. -/
theorem expiresDue_of_claimsOk
    (hOk : ClaimsOk state proposed)
    (hOf : OfClaimed proposed p) :
    ExpiresDue (state, p) := by
  intro runId replacement expiredAt hCommand active hGet
  rcases hOf.expiry _ _ _ hCommand with
    ⟨scanned, hScanned, hKey, hExpiry⟩
  rcases hOk.active runId active hGet with ⟨hKey', hMem⟩
  have hSame : scanned = active :=
    hOk.unique _ hScanned _ hMem (hKey.trans hKey'.symm)
  rw [hSame] at hExpiry
  exact ⟨hKey', hExpiry⟩

/-
  Where run ids are not repeated, every expiry that removes a
  run removes one whose lease has run out by the time the
  expiry names, and replaces it by its next attempt.
-/
theorem expiries_of_run
    (cal : Calendar)
    (labels : List ClusterLabel)
    (c : Cluster)
    (hDraws :
      Machine.Meets (Cluster.step cal) (DrawsOnce cal)
        (.init .default) labels)
    (hRun :
      Cluster.run cal (.init .default) labels = some c) :
    ∀ commit ∈ c.trace, ExpiresDue commit := by
  have hRule :=
    Replicated.run_rule
      (fun state proposed trace =>
        ClaimsOk state proposed ∧
          ∀ commit ∈ trace, ExpiresDue commit)
      (fun _ proposed p => OfClaimed proposed p)
      (by
        rintro s call ⟨hOk, hTrace⟩ hFresh
        exact ⟨claimsOk_call hOk hFresh, hTrace⟩)
      (by
        rintro s call ⟨hOk, _⟩ _ p hp
        rcases hp with hNew | hOld
        · exact ofClaimed_of_proposes hOk hNew
        · exact ofClaimed_append hOld)
      (by
        rintro s p state ⟨hOk, hTrace⟩ hOf _ hApply
        refine ⟨claimsOk_commit hOk hOf hApply, ?_⟩
        intro commit hMem
        rw [List.mem_append, List.mem_singleton] at hMem
        rcases hMem with hOld | rfl
        · exact hTrace commit hOld
        · exact expiresDue_of_claimsOk hOk hOf)
      (fun _ _ _ _ _ _ _ _ hq => hq)
      (s := .init .default)
      ⟨⟨by simp [Replicated.System.init, claimed],
          by simp [Replicated.System.init,
            PersistedStateMachine.default]⟩,
        by simp [Replicated.System.init]⟩
      (by simp [Replicated.System.init])
      hDraws hRun
  exact hRule.1.2

/- The run that a commit ends. -/
def endedRun
    (commit : PersistedStateMachine × Proposal) :
    Option RunId :=
  match runEffect commit.1 commit.2.command with
  | .ended runId _ => some runId
  | _ => none

/-
  Two scans read the same run; the expiry of the second one
  commits after another run has started.
-/
def lateExpiry : List ClusterLabel :=
  [.call (createAt "t" none 3 0), .commit 0,
    .call (pollAt "w1" none "r1" 2), .commit 0,
    .call (.expireActiveLeases (40 * nanosPerSecond)),
    .call (.expireActiveLeases (41 * nanosPerSecond)),
    .commit 0,
    .call (pollAt "w2" none "r2" 42), .commit 1,
    .commit 0]

theorem expiries_of_lateExpiry :
    ∃ c,
      Cluster.run utcCalendar (.init .default) lateExpiry =
          some c ∧
        c.trace.map endedRun =
            [none, none, some "r1", none, none] ∧
          ∀ commit ∈ c.trace, ExpiresDue commit := by
  have hView :
      (Cluster.run utcCalendar (.init .default)
          lateExpiry).map
          (fun c => c.trace.map endedRun) =
        some [none, none, some "r1", none, none] := by
    decide +kernel
  rcases Option.map_eq_some_iff.mp hView with
    ⟨c, hRun, hEnded⟩
  refine ⟨c, hRun, hEnded, ?_⟩
  exact
    expiries_of_run utcCalendar lateExpiry c
      (by decide +kernel) hRun

end Kron
