import Kron.Server.Cluster

/-
  Fencing tokens of accepted claims.

  A token is computed outside the state machine, from the
  token a poll or a lease scan read, and written when the
  claim or the expiry commits.

  Key definitions include:
    * `Kron.tokenWrite`
    * `Kron.acceptedTokens`
    * `Kron.TokenStep`

  Key theorems include:
    * `Kron.applyKronCommand_token`
    * `Kron.acceptedTokens_increasing`
    * `Kron.acceptedTokens_recreated`
-/

------------------------------------------------------------
-- Writing Tokens
------------------------------------------------------------

namespace Kron

/- The timer and the token that a command stores, if any. -/
def tokenWrite
    (state : PersistedStateMachine) :
    RaftCommand → Option (TimerId × UInt64)
| .claimRun timerId _ _ fencingToken _ _ =>
    if state.hasActive timerId then
      none
    else
      some (timerId, fencingToken)
| .expireRunLease runId (some run) _ =>
    (state.activeRuns[runId]?).map fun _ =>
      (run.timer, run.fencingToken)
| _ => none

/- An accepted claim stores its token. -/
theorem tokenWrite_of_accepted
    {state : PersistedStateMachine}
    {p : Proposal}
    {active : PersistedActiveRun}
    (hAccepted : accepted (state, p) = some active) :
    tokenWrite state p.command =
      some (active.timerId, active.fencingToken) := by
  rcases runEffect_eq_claimed
    (accepted_eq_some hAccepted) with ⟨hCommand, hIdle⟩
  rw [hCommand]
  simp [tokenWrite, hIdle]

/- The token of a stored timer. -/
def storedToken
    (state : PersistedStateMachine)
    (t : TimerId) : Option UInt64 :=
  (state.timers[t]?).map PersistedTimer.fencingToken

/-
  The token of a timer after a command: zero when the timer is
  created, the token the command writes, or the old one.
-/
theorem applyKronCommand_token
    {cal : Calendar}
    {state state' : PersistedStateMachine}
    {command : RaftCommand}
    (hApply :
      applyKronCommand cal state command = some state')
    (hIssued : command.issued = true)
    (t : TimerId) :
    (∃ spec next,
        command = .createTimer spec next ∧ spec.id = t ∧
          storedToken state' t = some 0) ∨
      (∃ token,
        tokenWrite state command = some (t, token) ∧
          storedToken state' t =
            (storedToken state t).map fun _ => token) ∨
        (∀ token,
            tokenWrite state command ≠ some (t, token)) ∧
          storedToken state' t = storedToken state t := by
  unfold storedToken
  cases command with
  | createTimer spec next =>
      cases hApply
      rw [state.get_putTimer]
      by_cases hId : spec.id = t
      · left
        exact ⟨spec, next, rfl, hId, by simp [hId]⟩
      · right; right
        exact ⟨by simp [tokenWrite], by simp [hId]⟩
  | claimRun timerId runId workerId token =>
      rcases applyKronCommand_claimRun hApply with
        ⟨hActive, rfl⟩ | ⟨hActive, rfl⟩
      · right; right
        exact ⟨by simp [tokenWrite, hActive], rfl⟩
      · right
        rw [state.get_startActive]
        by_cases hTimer : timerId = t
        · left
          refine ⟨token, ?_, ?_⟩
          · simp [tokenWrite, hTimer] at hActive ⊢
            exact hActive
          · cases state.timers[t]? <;> simp [hTimer]
        · right
          exact ⟨by simp [tokenWrite, hActive, hTimer],
            by simp [hTimer]⟩
  | completeRun runId workerId token =>
      right; right
      refine ⟨by simp [tokenWrite], ?_⟩
      rcases applyKronCommand_completeRun hApply with
        ⟨_, rfl⟩ | ⟨active, _, hComplete⟩
      · rfl
      · rw [state.get_completeActive hComplete]
        by_cases hTimer : active.timerId = t
        · cases state.timers[t]? <;> simp [hTimer]
        · simp [hTimer]
  | failRun runId workerId token error =>
      right; right
      refine ⟨by simp [tokenWrite], ?_⟩
      rcases applyKronCommand_failRun hApply with
        ⟨_, rfl⟩ | ⟨active, _, rfl⟩
      · rfl
      · rw [state.get_failActive]
        by_cases hTimer : active.timerId = t
        · cases state.timers[t]? <;> simp [hTimer]
        · simp [hTimer]
  | expireRunLease runId replacement =>
      right
      rcases applyKronCommand_expireRunLease hApply with
        ⟨hGet, rfl⟩ | ⟨active, hGet, rfl⟩
      · right
        refine ⟨?_, rfl⟩
        cases replacement <;> simp [tokenWrite, hGet]
      · rw [state.get_expireActive]
        cases replacement with
        | none =>
            right
            refine ⟨by simp [tokenWrite], ?_⟩
            by_cases hTimer : active.timerId = t
            · cases state.timers[t]? <;> simp [hTimer]
            · simp [hTimer]
        | some run =>
            by_cases hTimer : run.timer = t
            · left
              refine ⟨run.fencingToken, ?_, ?_⟩
              · simp [tokenWrite, hGet, hTimer]
              · cases state.timers[t]? <;> simp [hTimer]
            · right
              exact ⟨by simp [tokenWrite, hGet, hTimer],
                by simp [hTimer]⟩
  | heartbeatWorker =>
      right; right
      cases hApply
      exact ⟨by simp [tokenWrite], rfl⟩
  | registerWorker =>
      right; right
      cases hApply
      exact ⟨by simp [tokenWrite], rfl⟩
  | _ => cases hIssued

end Kron

------------------------------------------------------------
-- Tokens Of A Run
------------------------------------------------------------

namespace Kron

/- The tokens of the accepted claims of a timer, in order. -/
def acceptedTokens
    (t : TimerId)
    (trace : List (PersistedStateMachine × Proposal)) :
    List UInt64 :=
  trace.filterMap fun commit =>
    (accepted commit).bind fun active =>
      if active.timerId = t then
        some active.fencingToken
      else
        none

/-
  The timer is created only when it is not stored, and a token
  is written for it only over the token it was computed from.
-/
def TokenStep
    (t : TimerId)
    (s : Cluster)
    (p : Proposal) : Prop :=
  (∀ id ∈ p.command.created?, id = t →
      storedToken s.state t = none) ∧
    ∀ write ∈ tokenWrite s.state p.command, write.1 = t →
      ∀ timer ∈ s.state.timers[t]?,
        write.2.toNat = timer.fencingToken.toNat + 1

instance
    (t : TimerId)
    (s : Cluster)
    (p : Proposal) :
    Decidable (TokenStep t s p) :=
  inferInstanceAs (Decidable (_ ∧ _))

/-
  The accepted tokens grow and are at most the stored one;
  a timer that is not stored has none.
-/
private structure TokensOk
    (t : TimerId)
    (state : PersistedStateMachine)
    (trace : List (PersistedStateMachine × Proposal)) :
    Prop where
  increasing : (acceptedTokens t trace).Pairwise (· < ·)
  fresh :
    storedToken state t = none → acceptedTokens t trace = []
  bounded :
    ∀ stored, storedToken state t = some stored →
      ∀ token ∈ acceptedTokens t trace, token ≤ stored

/- Stored timers stay stored. -/
theorem timers_isSome_step
    {cal : Calendar}
    {state state' : PersistedStateMachine}
    {command : RaftCommand}
    (hApply :
      applyKronCommand cal state command = some state')
    (hIssued : command.issued = true)
    {t : TimerId}
    (hStored : (state.timers[t]?).isSome) :
    (state'.timers[t]?).isSome := by
  have hOld : (storedToken state t).isSome := by
    simpa [storedToken] using hStored
  have hNew : (storedToken state' t).isSome := by
    rcases applyKronCommand_token hApply hIssued t with
      ⟨_, _, _, _, hZero⟩ | ⟨_, _, hMap⟩ | ⟨_, hSame⟩
    · simp [hZero]
    · simpa [hMap] using hOld
    · rw [hSame]
      exact hOld
  simpa [storedToken] using hNew

private theorem acceptedTokens_concat
    (t : TimerId)
    (trace : List (PersistedStateMachine × Proposal))
    (commit : PersistedStateMachine × Proposal) :
    acceptedTokens t (trace ++ [commit]) =
      acceptedTokens t trace ++
        ((accepted commit).bind fun active =>
          if active.timerId = t then
            some active.fencingToken
          else
            none).toList := by
  unfold acceptedTokens
  rw [List.filterMap_append]
  congr 1

/- A commit that accepts nothing of the timer adds nothing. -/
private theorem acceptedTokens_of_no_write
    {t : TimerId}
    {state : PersistedStateMachine}
    {p : Proposal}
    (trace : List (PersistedStateMachine × Proposal))
    (hNone :
      ∀ token,
        tokenWrite state p.command ≠ some (t, token)) :
    acceptedTokens t (trace ++ [(state, p)]) =
      acceptedTokens t trace := by
  rw [acceptedTokens_concat]
  cases hAccepted : accepted (state, p) with
  | none => simp
  | some active =>
      have hWrite := tokenWrite_of_accepted hAccepted
      by_cases hTimer : active.timerId = t
      · rw [hTimer] at hWrite
        exact absurd hWrite (hNone _)
      · simp [hTimer]

/- A commit that writes the timer's token may accept it. -/
private theorem acceptedTokens_of_write
    {t : TimerId}
    {state : PersistedStateMachine}
    {p : Proposal}
    {token : UInt64}
    (trace : List (PersistedStateMachine × Proposal))
    (hWrite :
      tokenWrite state p.command = some (t, token)) :
    acceptedTokens t (trace ++ [(state, p)]) =
        acceptedTokens t trace ∨
      acceptedTokens t (trace ++ [(state, p)]) =
        acceptedTokens t trace ++ [token] := by
  rw [acceptedTokens_concat]
  cases hAccepted : accepted (state, p) with
  | none => exact .inl (by simp)
  | some active =>
      have hSame := tokenWrite_of_accepted hAccepted
      rw [hWrite] at hSame
      cases hSame
      exact .inr (by simp)

/- One commit keeps the accepted tokens in order. -/
private theorem tokensOk_commit
    {cal : Calendar}
    {t : TimerId}
    {s : Cluster}
    {p : Proposal}
    {state' : PersistedStateMachine}
    (hTokens : TokensOk t s.state s.trace)
    (hIssued : p.command.issued = true)
    (hStored : ClaimsStored s.state p)
    (hStep : TokenStep t s p)
    (hApply :
      applyKronCommand cal s.state p.command =
        some state') :
    TokensOk t state' (s.trace ++ [(s.state, p)]) := by
  rcases applyKronCommand_token hApply hIssued t with
    ⟨spec, next, hCommand, hId, hZero⟩ |
      ⟨token, hWrite, hMap⟩ | ⟨hNone, hSame⟩
  · -- a created timer was not stored, so nothing was claimed
    have hAbsent := hStep.1 spec.id (by simp [hCommand,
      RaftCommand.created?]) hId
    have hEmpty :
        acceptedTokens t (s.trace ++ [(s.state, p)]) = [] := by
      rw [acceptedTokens_of_no_write]
      · exact hTokens.fresh hAbsent
      · simp [hCommand, tokenWrite]
    refine ⟨by simp [hEmpty], fun _ => hEmpty, ?_⟩
    simp [hEmpty]
  · cases hOld : storedToken s.state t with
    | none =>
        -- only an expiry writes over a timer not stored
        rw [hOld] at hMap
        have hEmpty := hTokens.fresh hOld
        have hQuiet :
            acceptedTokens t (s.trace ++ [(s.state, p)]) =
              [] := by
          rw [acceptedTokens_concat, hEmpty]
          cases hAccepted : accepted (s.state, p) with
          | none => rfl
          | some active =>
              have hSame := tokenWrite_of_accepted hAccepted
              rw [hWrite] at hSame
              cases hSame
              have hCommand :=
                (runEffect_eq_claimed
                  (accepted_eq_some hAccepted)).1
              have hIn := hStored
                (active.runId, active.timerId)
                (by simp [hCommand, RaftCommand.claim?])
              simp [storedToken] at hOld
              simp [hOld] at hIn
        refine ⟨by simp [hQuiet], fun _ => hQuiet, ?_⟩
        simp [hQuiet]
    | some stored =>
        have hNext : token.toNat = stored.toNat + 1 := by
          rcases Option.map_eq_some_iff.mp hOld with
            ⟨timer, hTimer, rfl⟩
          exact hStep.2 (t, token) hWrite rfl timer hTimer
        rw [hOld] at hMap
        have hLt :
            ∀ old ∈ acceptedTokens t s.trace,
              old < token := by
          intro old hMem
          have hLe := hTokens.bounded stored hOld old hMem
          rw [UInt64.le_iff_toNat_le] at hLe
          rw [UInt64.lt_iff_toNat_lt]
          omega
        rcases acceptedTokens_of_write s.trace hWrite with
          hEq | hEq
        · refine ⟨hEq ▸ hTokens.increasing, ?_, ?_⟩
          · intro hGone
            rw [hMap] at hGone
            cases hGone
          · intro stored' hStored' old hMem
            rw [hMap] at hStored'
            cases hStored'
            rw [hEq] at hMem
            exact UInt64.le_of_lt (hLt old hMem)
        · refine ⟨?_, ?_, ?_⟩
          · rw [hEq, List.pairwise_append]
            refine ⟨hTokens.increasing, by simp, ?_⟩
            simpa using hLt
          · intro hGone
            rw [hMap] at hGone
            cases hGone
          · intro stored' hStored' old hMem
            rw [hMap] at hStored'
            cases hStored'
            rw [hEq, List.mem_append] at hMem
            rcases hMem with hMem | hMem
            · exact UInt64.le_of_lt (hLt old hMem)
            · rw [List.mem_singleton.mp hMem]
              exact UInt64.le_refl _
  · have hEq := acceptedTokens_of_no_write s.trace hNone
    refine ⟨hEq ▸ hTokens.increasing, ?_, ?_⟩
    · rw [hSame, hEq]
      exact hTokens.fresh
    · rw [hSame, hEq]
      exact hTokens.bounded

/-
  In every run of the cluster in which the timer is created
  only when it is not stored, and each token is written over
  the token it was computed from, the tokens of the accepted
  claims of the timer strictly increase.
-/
theorem acceptedTokens_increasing
    (cal : Calendar)
    (t : TimerId)
    (labels : List ClusterLabel)
    (c : Cluster)
    (hMeets :
      Machine.Meets (Cluster.step cal)
        (Replicated.Steps (fun _ _ => True) (TokenStep t))
        (.init .default) labels)
    (hRun :
      Cluster.run cal (.init .default) labels = some c) :
    (acceptedTokens t c.trace).Pairwise (· < ·) := by
  have hRule :=
    Replicated.run_rule
      (fun state _ trace => TokensOk t state trace)
      (fun state _ p =>
        p.command.issued = true ∧ ClaimsStored state p)
      (fun _ _ hGood _ => hGood)
      (by
        rintro s call _ _ p (hMem | hOld)
        · have hProposes := proposes_of_mem hMem
          exact ⟨hProposes.issued, hProposes.claimsStored⟩
        · exact hOld)
      (by
        rintro s p state hGood ⟨hIssued, hStored⟩ hStep
          hApply
        exact tokensOk_commit hGood hIssued hStored hStep
          hApply)
      (by
        rintro s p q state _ ⟨hIssued, _⟩ _ hApply
          ⟨hIssued', hStored'⟩
        refine ⟨hIssued', ?_⟩
        intro claim hClaim
        exact timers_isSome_step hApply hIssued
          (hStored' claim hClaim))
      ⟨by simp [acceptedTokens, Replicated.System.init],
        by simp [acceptedTokens, Replicated.System.init],
        by simp [acceptedTokens, Replicated.System.init]⟩
      (by simp [Replicated.System.init])
      hMeets hRun
  exact hRule.1.increasing

/- Two runs of a timer, the second after the first. -/
def twoRuns : List ClusterLabel :=
  atOnce
    [createAt "t" none 3 0, pollAt "w1" none "r1" 2,
      completeAt "w1" none "r1" 1 3,
      pollAt "w2" none "r2" 5]

theorem acceptedTokens_twoRuns :
    ∃ c,
      Cluster.run utcCalendar (.init .default) twoRuns =
          some c ∧
        acceptedTokens "t" c.trace = [1, 2] ∧
          (acceptedTokens "t" c.trace).Pairwise (· < ·) := by
  have hTokens :
      (Cluster.run utcCalendar (.init .default) twoRuns).map
          (fun c => acceptedTokens "t" c.trace) =
        some [1, 2] := by
    decide +kernel
  rcases Option.map_eq_some_iff.mp hTokens with
    ⟨c, hRun, hEq⟩
  refine ⟨c, hRun, hEq, ?_⟩
  exact
    acceptedTokens_increasing utcCalendar "t" twoRuns c
      (by decide +kernel) hRun

/- The same timer created again between its runs. -/
def recreated : List ClusterLabel :=
  atOnce
    [createAt "t" none 3 0, pollAt "w1" none "r1" 2,
      completeAt "w1" none "r1" 1 3, createAt "t" none 3 4,
      pollAt "w2" none "r2" 6]

/- A timer that is created again repeats its tokens. -/
theorem acceptedTokens_recreated :
    ∃ c,
      Cluster.run utcCalendar (.init .default) recreated =
          some c ∧
        ¬ (acceptedTokens "t" c.trace).Pairwise (· < ·) := by
  have hTokens :
      (Cluster.run utcCalendar (.init .default)
          recreated).map
          (fun c => acceptedTokens "t" c.trace) =
        some [1, 1] := by
    decide +kernel
  rcases Option.map_eq_some_iff.mp hTokens with
    ⟨c, hRun, hEq⟩
  refine ⟨c, hRun, ?_⟩
  rw [hEq]
  decide

end Kron
