import Kron.Server.RaftStore

/-
  Crashes inside `persist`.

  The JSON files are replaced atomically, so that a crash
  leaves each of them old or new. The segments are removed
  while the old manifest still lists them: until the new
  manifest is in place the directory does not open, unless
  the old manifest listed nothing.

  Key definitions include:
    * `Kron.StoreCall.Removes`
    * `Kron.Retained`
    * `Kron.ReopensSafely`

  Key theorems include:
    * `Kron.get_of_retained`
    * `Kron.opens_crash`
    * `Kron.not_opens_removed`
    * `Kron.reopensSafely_iff`
-/

------------------------------------------------------------
-- Entries That Must Be Kept
------------------------------------------------------------

namespace Kron

open FileSystem

/- A call takes an entry out of the log or replaces it. -/
def StoreCall.Removes
    (e : KronEntry) :
    StoreCall → Prop
| .append entries =>
    ∃ e' ∈ entries,
      e'.logId.index = e.logId.index ∧ e' ≠ e
| .truncate logId => logId.index ≤ e.logId.index
| .purge logId => e.logId.index ≤ logId.index
| _ => False

/-
  The entry was appended by one of the calls, and nothing
  later in that call or in a later one removes it.
-/
def Retained
    (calls : List StoreCall)
    (e : KronEntry) : Prop :=
  ∃ before entries later after,
    calls =
        before ++
          .append (entries ++ e :: later) :: after ∧
      (∀ e' ∈ later,
        e'.logId.index = e.logId.index → e' = e) ∧
      ∀ call ∈ after, ¬ call.Removes e

/-
  The directory opens as a store with the vote before or
  after the last call and with every retained entry that the
  last call does not remove.
-/
def ReopensSafely
    (codecs : StoreCodecs)
    (dataDir : String)
    (calls : List StoreCall)
    (call : StoreCall)
    (votes : Option Vote × Option Vote)
    (dir : StoreDir) : Prop :=
  ∃ reopened,
    openStore codecs dataDir dir = .ok reopened ∧
      (reopened.vote = votes.1 ∨ reopened.vote = votes.2) ∧
      ∀ e, Retained calls e → ¬ call.Removes e →
        reopened.logs[e.logId.index]? = some e

variable {cal : Calendar}
variable {codecs : StoreCodecs}

/- Entries that agree with a binding keep it. -/
theorem get_insertEntries_of_agree
    {logs : BTreeMap UInt64 KronEntry}
    {entries : List KronEntry}
    {e : KronEntry}
    (hGet : logs[e.logId.index]? = some e)
    (hAgree :
      ∀ e' ∈ entries,
        e'.logId.index = e.logId.index → e' = e) :
    (insertEntries logs entries)[e.logId.index]? =
      some e := by
  induction entries generalizing logs with
  | nil => exact hGet
  | cons entry entries ih =>
      apply ih
      · rw [BTreeMap.get_insert]
        split
        · rename_i hIndex
          rw [hAgree entry List.mem_cons_self hIndex]
        · exact hGet
      · intro e' hMem
        exact hAgree e' (List.mem_cons_of_mem _ hMem)

/- A call that does not remove an entry keeps it. -/
theorem get_update_of_not_removes
    {store store' : PersistedRaftStore}
    {call : StoreCall}
    {e : KronEntry}
    (hGet : store.logs[e.logId.index]? = some e)
    (hUpdate :
      call.update cal codecs store = some (.ok store'))
    (hKeeps : ¬ call.Removes e) :
    store'.logs[e.logId.index]? = some e := by
  cases call with
  | saveVote vote =>
      cases hUpdate
      exact hGet
  | saveCommitted committed =>
      cases hUpdate
      exact hGet
  | append entries =>
      cases hUpdate
      apply get_insertEntries_of_agree hGet
      intro e' hMem hIndex
      by_contra hNe
      exact hKeeps ⟨e', hMem, hIndex, hNe⟩
  | truncate logId =>
      cases hUpdate
      simp only
      rw [Std.ExtTreeMap.getElem?_filter', hGet]
      have hLt : e.logId.index < logId.index :=
        UInt64.not_le.mp hKeeps
      simp [hLt]
  | purge logId =>
      cases hUpdate
      simp only
      rw [Std.ExtTreeMap.getElem?_filter', hGet]
      have hLt : logId.index < e.logId.index :=
        UInt64.not_le.mp hKeeps
      simp [hLt]
  | apply entries =>
      rcases Option.map_eq_some_iff.mp hUpdate with
        ⟨state, _, hStore⟩
      cases hStore
      exact hGet
  | installSnapshot info snapshot =>
      simp only [StoreCall.update] at hUpdate
      split at hUpdate
      · cases hUpdate
      · cases hUpdate
        exact hGet

theorem get_of_run
    {s t : PersistedRaftStore × StoreDir}
    {labels : List (StoreCall × List String)}
    {e : KronEntry}
    (hGet : s.1.logs[e.logId.index]? = some e)
    (hKeeps :
      ∀ call ∈ labels.map Prod.fst, ¬ call.Removes e)
    (hRun :
      Machine.run (storeStep cal codecs) s labels =
        some t) :
    t.1.logs[e.logId.index]? = some e := by
  induction labels generalizing s with
  | nil =>
      cases hRun
      exact hGet
  | cons label labels ih =>
      rcases Machine.run_cons_eq_some hRun with
        ⟨s', hStep, hRest⟩
      refine ih ?_ ?_ hRest
      · rcases storeStep_cases hStep with
          ⟨_, _, rfl⟩ | ⟨store, hUpdate, _, _, rfl⟩
        · exact hGet
        · exact
            get_update_of_not_removes hGet hUpdate
              (hKeeps label.1 (by simp))
      · intro call hMem
        exact hKeeps call (List.mem_cons_of_mem _ hMem)

/- The log holds every retained entry. -/
theorem get_of_retained
    {s t : PersistedRaftStore × StoreDir}
    {labels : List (StoreCall × List String)}
    {e : KronEntry}
    (hRun :
      Machine.run (storeStep cal codecs) s labels = some t)
    (hRetained : Retained (labels.map Prod.fst) e) :
    t.1.logs[e.logId.index]? = some e := by
  rcases hRetained with
    ⟨before, entries, later, after, hCalls, hLater, hAfter⟩
  rcases List.map_eq_append_iff.mp hCalls with
    ⟨ls, rest, rfl, _, hRest⟩
  rcases List.map_eq_cons_iff.mp hRest with
    ⟨label, ls', rfl, hLabel, hLs'⟩
  rw [Machine.run_append] at hRun
  rcases Option.bind_eq_some_iff.mp hRun with
    ⟨s₁, _, hRun₁⟩
  rcases Machine.run_cons_eq_some hRun₁ with
    ⟨s₂, hStep, hRun₂⟩
  rw [← hLs'] at hAfter
  refine get_of_run ?_ hAfter hRun₂
  rcases storeStep_cases hStep with
    ⟨e', hUpdate, _⟩ | ⟨store, hUpdate, _, _, rfl⟩
  · rw [hLabel] at hUpdate
    cases hUpdate
  · rw [hLabel] at hUpdate
    cases hUpdate
    simp only
    rw [insertEntries_append]
    apply get_insertEntries_of_agree _ hLater
    rw [BTreeMap.get_insert, if_pos rfl]

end Kron

------------------------------------------------------------
-- Directories After A Crash
------------------------------------------------------------

namespace Kron

open Text
open FileSystem

variable {codecs : StoreCodecs}
variable {dataDir : String}
variable {dir : StoreDir}
variable {order : List String}
variable {store store' : PersistedRaftStore}

/- The operations before the manifest is replaced. -/
def beforeManifest
    (codecs : StoreCodecs)
    (order : List String)
    (store : PersistedRaftStore) :
    List (Op String Bytes) :=
  writeJsonAtomic .vote
      (codecs.vote.toTextPretty store.vote) ++
    writeJsonAtomic .committed
      (codecs.committed.toTextPretty store.committed) ++
    writeJsonAtomic .state
      (codecs.state.toTextPretty
        { stateMachine := store.stateMachine }) ++
    (order.map .remove ++
      (writeSegments codecs.entry store.logs.vals).ops)

theorem persistOps_eq
    (codecs : StoreCodecs)
    (order : List String)
    (store : PersistedRaftStore) :
    persistOps codecs order store =
      beforeManifest codecs order store ++
        writeJsonAtomic .manifest
          (codecs.manifest.toTextPretty
            (manifestOf codecs store)) := by
  simp only [persistOps, rewriteLogSegments,
    beforeManifest, List.append_assoc]

/- A crash leaves each JSON file old or new. -/
theorem crash_get
    (dir : StoreDir)
    (file : StoreFile)
    (text : String)
    {ops before after : List (Op String Bytes)}
    (hOps :
      ops = before ++ writeJsonAtomic file text ++ after)
    (hBefore : Spares file.path before)
    (hAfter : Spares file.path after)
    (k : Nat) :
    (crash dir ops k)[file.path]? = dir[file.path]? ∨
      (crash dir ops k)[file.path]? =
        some (utf8 (text ++ "\n")) := by
  rw [hOps]
  exact
    crash_replace_get dir _
      (StoreFile.path_ne_tmp file file) hBefore hAfter k

/- The state machine on disk is the old or the new one. -/
theorem readState_crash
    (hLossless : codecs.Lossless)
    (hOrder : order.Perm (segmentPaths dir))
    (hKeyed : KeyedByIndex store'.logs)
    (k : Nat) :
    readState codecs
          (crash dir (persistOps codecs order store') k) =
        readState codecs dir ∨
      readState codecs
          (crash dir (persistOps codecs order store') k) =
        .ok store'.stateMachine := by
  have hFile :=
    crash_get dir .state
      (codecs.state.toTextPretty
        { stateMachine := store'.stateMachine })
      (rfl : persistOps codecs order store' = _)
      ((spares_other _ (by decide)).append
        (spares_other _ (by decide)))
      (spares_rewrite_file hOrder hKeyed (by decide)) k
  rcases hFile with hOld | hNew
  · exact Or.inl (readState_congr codecs hOld)
  · exact Or.inr (readState_of_get hLossless.state hNew)

/- The vote on disk is the old or the new one. -/
theorem readVote_crash
    (hLossless : codecs.Lossless)
    (hOrder : order.Perm (segmentPaths dir))
    (hKeyed : KeyedByIndex store'.logs)
    (k : Nat) :
    readJsonOptional codecs.vote
          (crash dir (persistOps codecs order store') k)
          .vote =
        readJsonOptional codecs.vote dir .vote ∨
      readJsonOptional codecs.vote
          (crash dir (persistOps codecs order store') k)
          .vote = .ok store'.vote := by
  have hOps :
      persistOps codecs order store' =
        [] ++
          writeJsonAtomic .vote
            (codecs.vote.toTextPretty store'.vote) ++
          (writeJsonAtomic .committed
              (codecs.committed.toTextPretty
                store'.committed) ++
            (writeJsonAtomic .state
                (codecs.state.toTextPretty
                  { stateMachine :=
                      store'.stateMachine }) ++
              rewriteLogSegments codecs order store')) := by
    simp only [persistOps, List.append_assoc,
      List.nil_append]
  have hNone : Spares StoreFile.vote.path [] := by
    intro op hOp
    cases hOp
  rcases crash_get dir .vote _ hOps hNone
      ((spares_other _ (by decide)).append
        ((spares_other _ (by decide)).append
          (spares_rewrite_file hOrder hKeyed
            (by decide)))) k with
    hOld | hNew
  · exact Or.inl (readJsonOptional_congr codecs.vote hOld)
  · exact
      Or.inr (readJsonOptional_of_get hLossless.vote hNew)

theorem readCommitted_crash
    (hLossless : codecs.Lossless)
    (hOrder : order.Perm (segmentPaths dir))
    (hKeyed : KeyedByIndex store'.logs)
    (k : Nat) :
    readJsonOptional codecs.committed
          (crash dir (persistOps codecs order store') k)
          .committed =
        readJsonOptional codecs.committed dir .committed ∨
      readJsonOptional codecs.committed
          (crash dir (persistOps codecs order store') k)
          .committed = .ok store'.committed := by
  have hOps :
      persistOps codecs order store' =
        writeJsonAtomic .vote
            (codecs.vote.toTextPretty store'.vote) ++
          writeJsonAtomic .committed
            (codecs.committed.toTextPretty
              store'.committed) ++
          (writeJsonAtomic .state
              (codecs.state.toTextPretty
                { stateMachine :=
                    store'.stateMachine }) ++
            rewriteLogSegments codecs order store') := by
    simp only [persistOps, List.append_assoc]
  rcases crash_get dir .committed _ hOps
      (spares_other _ (by decide))
      ((spares_other _ (by decide)).append
        (spares_rewrite_file hOrder hKeyed
          (by decide))) k with
    hOld | hNew
  · exact
      Or.inl (readJsonOptional_congr codecs.committed hOld)
  · exact
      Or.inr
        (readJsonOptional_of_get hLossless.committed hNew)

theorem spares_beforeManifest
    (codecs : StoreCodecs)
    (hOrder : order.Perm (segmentPaths dir))
    (hKeyed : KeyedByIndex store'.logs) :
    Spares StoreFile.manifest.path
      (beforeManifest codecs order store') := by
  have hSegment :=
    (StoreFile.not_isSegmentPath .manifest).1
  rcases writeSegments_chunked codecs.entry dir
      (ascending_vals hKeyed) with ⟨_, _, _, hOps⟩
  exact
    (((spares_other _ (by decide)).append
        (spares_other _ (by decide))).append
      (spares_other _ (by decide))).append
      (((onSegments_remove hOrder).spares hSegment).append
        (hOps.spares hSegment))

/- The manifest is replaced by the last operation. -/
theorem crash_manifest
    (hOrder : order.Perm (segmentPaths dir))
    (hKeyed : KeyedByIndex store'.logs)
    {k : Nat}
    (hLt : k < (persistOps codecs order store').length) :
    (crash dir (persistOps codecs order store')
        k)[StoreFile.manifest.path]? =
      dir[StoreFile.manifest.path]? := by
  have hLength :
      (persistOps codecs order store').length =
        (beforeManifest codecs order store').length + 2 := by
    rw [persistOps_eq, List.length_append]
    rfl
  have hBefore :=
    spares_beforeManifest codecs hOrder hKeyed
  apply runAll_get_of_untouched
  intro op hOp
  rw [persistOps_eq, List.take_append] at hOp
  rcases List.mem_append.mp hOp with hOld | hNew
  · exact hBefore op (List.mem_of_mem_take hOld)
  · have hOne :
        k - (beforeManifest codecs order store').length ≤
          1 := by
      omega
    have hMem :=
      (List.take_subset_take_left _ hOne) hNew
    have hEq :
        op =
          .write StoreFile.manifest.tmp
            (utf8
              (codecs.manifest.toTextPretty
                (manifestOf codecs store') ++ "\n")) := by
      simpa [writeJsonAtomic, replace] using hMem
    rw [hEq]
    exact StoreFile.path_ne_tmp .manifest .manifest

end Kron

------------------------------------------------------------
-- Reopening After A Crash
------------------------------------------------------------

namespace Kron

open Text
open FileSystem

variable {cal : Calendar}
variable {codecs : StoreCodecs}
variable {dataDir : String}
variable {dir : StoreDir}
variable {order : List String}
variable {store store' : PersistedRaftStore}

/-
  The manifest lists segments of the writer, and none exactly
  when the log is empty.
-/
structure Listed
    (store : PersistedRaftStore)
    (manifest : Manifest) : Prop where
  isSegment :
    ∀ segment ∈ manifest.segments,
      isSegmentPath (logPath segment.file) = true
  empty : manifest.segments = [] ↔ store.logs = ∅

theorem vals_eq_nil_iff
    (logs : BTreeMap UInt64 KronEntry) :
    logs.vals = [] ↔ logs = ∅ := by
  simp [BTreeMap.vals]

theorem listed_manifestOf
    (codecs : StoreCodecs)
    (hKeyed : KeyedByIndex store.logs) :
    Listed store (manifestOf codecs store) := by
  rcases writeSegments_chunked codecs.entry ∅
      (ascending_vals hKeyed) with
    ⟨chunks, hChunks, hHolds, _⟩
  constructor
  · intro segment hSegment
    rcases List.mem_iff_getElem.mp hSegment with
      ⟨i, hi, hEq⟩
    have hNamed :=
      (List.forall₂_iff_get.mp hHolds).2 i hi
        (by rw [← hHolds.length_eq]; exact hi)
    simp only [List.get_eq_getElem] at hNamed
    have hFile := hNamed.named
    rw [← hEq]
    simp only [manifestOf] at hFile ⊢
    rw [hFile]
    exact isSegmentPath_segmentFileName _ _
  · rw [← vals_eq_nil_iff, ← hChunks]
    constructor
    · intro hNil
      simp only [manifestOf] at hNil
      rw [hNil] at hHolds
      cases hHolds
      rfl
    · intro hNil
      simp only [manifestOf]
      generalize
        (writeSegments codecs.entry
          store.logs.vals).segments = segments at hHolds ⊢
      cases hHolds with
      | nil => rfl
      | cons hSegment _ =>
          rcases hSegment.starts with ⟨e, rest, rfl, _⟩
          simp at hNil

/- A store and the directory its calls have written. -/
def Written
    (codecs : StoreCodecs)
    (dataDir : String)
    (s : PersistedRaftStore × StoreDir) : Prop :=
  ∃ manifest,
    Opens codecs dataDir s.2 s.1 manifest ∧
      Listed s.1 manifest

theorem written_fresh
    (codecs : StoreCodecs)
    (hLossless : codecs.Lossless)
    (dataDir : String) :
    Written codecs dataDir
      (.default, runAll ∅ (openOps codecs ∅)) := by
  rcases (openStore_eq_ok_iff _).mp
      (openStore_empty codecs dataDir) with
    ⟨manifest, hOpens⟩
  have hInitial : manifest = .initial := by
    have hListed := hOpens.listed
    simp only [readManifest,
      Std.ExtTreeMap.getElem?_empty, if_true] at hListed
    cases hListed
    rfl
  refine
    ⟨manifest, opens_openOps hLossless hOpens, ?_, ?_⟩
  · rw [hInitial]
    intro segment hMem
    cases hMem
  · rw [hInitial]
    simp [Manifest.initial, PersistedRaftStore.default]

theorem written_run
    (hLossless : codecs.Lossless)
    {s t : PersistedRaftStore × StoreDir}
    {labels : List (StoreCall × List String)}
    (hWritten : Written codecs dataDir s)
    (hRun :
      Machine.run (storeStep cal codecs) s labels =
        some t) :
    Written codecs dataDir t := by
  refine
    Machine.run_invariant (Written codecs dataDir) ?_
      hWritten
      (Machine.meets_of_forall (fun _ _ => True) _
        (fun _ _ _ => trivial)) hRun
  rintro s label s' ⟨manifest, hOpens, hListed⟩ _ hStep
  rcases storeStep_cases hStep with
    ⟨_, _, rfl⟩ | ⟨store, hUpdate, hFits, hOrder, rfl⟩
  · exact ⟨manifest, hOpens, hListed⟩
  · have hKeyed := keyedByIndex_update hOpens.keyed hUpdate
    have hAfter :=
      openStore_persist dataDir hLossless hOpens.legacy
        hOrder hKeyed hFits
    exact ⟨_, hAfter, listed_manifestOf codecs hKeyed⟩

/-
  Where the old manifest lists nothing, the directory opens
  after a crash at any point.
-/
theorem opens_crash
    (hLossless : codecs.Lossless)
    {manifest : Manifest}
    (hOpens : Opens codecs dataDir dir store manifest)
    (hNone : manifest.segments = [])
    (hOrder : order.Perm (segmentPaths dir))
    (hKeyed : KeyedByIndex store'.logs)
    (hFits : store'.Fits codecs)
    (k : Nat) :
    ∃ reopened,
      openStore codecs dataDir
            (crash dir (persistOps codecs order store') k) =
          .ok reopened ∧
        (reopened.vote = store.vote ∨
          reopened.vote = store'.vote) := by
  by_cases hLt :
      k < (persistOps codecs order store').length
  · have hState :
        ∃ state,
          readState codecs
              (crash dir (persistOps codecs order store')
                k) = .ok state := by
      rcases readState_crash hLossless hOrder hKeyed k with
        hOld | hNew
      · exact ⟨_, hOld.trans hOpens.state⟩
      · exact ⟨_, hNew⟩
    have hCommitted :
        ∃ committed,
          readJsonOptional codecs.committed
              (crash dir (persistOps codecs order store')
                k) .committed = .ok committed := by
      rcases readCommitted_crash hLossless hOrder hKeyed k
        with hOld | hNew
      · exact ⟨_, hOld.trans hOpens.committed⟩
      · exact ⟨_, hNew⟩
    have hVote :
        ∃ vote,
          readJsonOptional codecs.vote
                (crash dir (persistOps codecs order store')
                  k) .vote = .ok vote ∧
            (vote = store.vote ∨ vote = store'.vote) := by
      rcases readVote_crash hLossless hOrder hKeyed k with
        hOld | hNew
      · exact ⟨_, hOld.trans hOpens.vote, Or.inl rfl⟩
      · exact ⟨_, hNew, Or.inr rfl⟩
    rcases hState with ⟨state, hState⟩
    rcases hCommitted with ⟨committed, hCommitted⟩
    rcases hVote with ⟨vote, hVote, hEither⟩
    refine
      ⟨{ vote := vote
         committed := committed
         lastPurgedLogId := manifest.lastPurgedLogId
         logs := ∅
         stateMachine := state },
        (openStore_eq_ok_iff _).mpr ⟨manifest, ?_⟩,
        hEither⟩
    constructor
    · have hSpares :
          Spares legacyPath
            ((persistOps codecs order store').take k) := by
        intro op hOp
        exact
          spares_legacy hOrder hKeyed op
            (List.mem_of_mem_take hOp)
      rw [crash, runAll_get_of_untouched dir hSpares]
      exact hOpens.legacy
    · rw [readManifest_congr codecs
        (crash_manifest hOrder hKeyed hLt)]
      exact hOpens.listed
    · rw [hNone]
      rfl
    · exact hState
    · exact hVote
    · exact hCommitted
    · rfl
  · have hAll :
        crash dir (persistOps codecs order store') k =
          runAll dir (persistOps codecs order store') := by
      unfold crash
      rw [List.take_of_length_le (by omega)]
    rw [hAll]
    exact
      ⟨store',
        (openStore_eq_ok_iff store').mpr
          ⟨_, openStore_persist dataDir hLossless
            hOpens.legacy hOrder hKeyed hFits⟩,
        Or.inr rfl⟩

/-
  Where it lists a segment, the directory does not open once
  the segments are removed.
-/
theorem not_opens_removed
    {manifest : Manifest}
    (hOpens : Opens codecs dataDir dir store manifest)
    (hListed : Listed store manifest)
    (hLogs : store.logs ≠ ∅)
    (hOrder : order.Perm (segmentPaths dir))
    (hKeyed : KeyedByIndex store'.logs)
    (reopened : PersistedRaftStore) :
    openStore codecs dataDir
        (crash dir (persistOps codecs order store')
          (6 + order.length)) ≠ .ok reopened := by
  intro hOpen
  rcases (openStore_eq_ok_iff reopened).mp hOpen with
    ⟨manifest', hOpens'⟩
  have hTake :
      (persistOps codecs order store').take
          (6 + order.length) =
        (writeJsonAtomic .vote
              (codecs.vote.toTextPretty store'.vote) ++
            writeJsonAtomic .committed
              (codecs.committed.toTextPretty
                store'.committed) ++
            writeJsonAtomic .state
              (codecs.state.toTextPretty
                { stateMachine :=
                    store'.stateMachine })) ++
          order.map .remove := by
    have hSplit :
        persistOps codecs order store' =
          ((writeJsonAtomic .vote
                (codecs.vote.toTextPretty store'.vote) ++
              writeJsonAtomic .committed
                (codecs.committed.toTextPretty
                  store'.committed) ++
              writeJsonAtomic .state
                (codecs.state.toTextPretty
                  { stateMachine :=
                      store'.stateMachine })) ++
            order.map .remove) ++
            ((writeSegments codecs.entry
                store'.logs.vals).ops ++
              writeJsonAtomic .manifest
                (codecs.manifest.toTextPretty
                  (manifestOf codecs store'))) := by
      simp only [persistOps, rewriteLogSegments,
        List.append_assoc]
    rw [hSplit]
    apply List.take_left'
    simp [writeJsonAtomic, replace]
    omega
  have hManifest : manifest' = manifest := by
    have hLess :
        6 + order.length <
          (persistOps codecs order store').length := by
      rw [persistOps_eq]
      simp [beforeManifest, writeJsonAtomic, replace]
      omega
    have hSame :=
      readManifest_congr codecs
        (crash_manifest hOrder hKeyed hLess)
    rw [hOpens'.listed, hOpens.listed] at hSame
    exact Except.ok.inj hSame
  have hLogs' := hOpens'.logs
  rw [hManifest] at hLogs'
  have hOld := hOpens.logs
  cases hSegments : manifest.segments with
  | nil => exact hLogs (hListed.empty.mp hSegments)
  | cons segment segments =>
      rw [hSegments] at hLogs' hOld
      have hPath :
          isSegmentPath (logPath segment.file) = true :=
        hListed.isSegment segment
          (by rw [hSegments]; exact List.mem_cons_self)
      have hThere : dir[logPath segment.file]? ≠ none := by
        intro hMissing
        simp only [readLogSegments, hMissing] at hOld
        cases hOld
      have hMem : logPath segment.file ∈ order := by
        rw [hOrder.mem_iff]
        refine List.mem_filter.mpr ⟨?_, hPath⟩
        rw [Std.ExtTreeMap.mem_keys,
          Std.ExtTreeMap.mem_iff_isSome_getElem?]
        exact Option.isSome_iff_ne_none.mpr hThere
      have hGone :
          (crash dir (persistOps codecs order store')
              (6 + order.length))[logPath
                segment.file]? = none := by
        unfold crash
        rw [hTake, runAll_append, runAll_remove_get,
          if_pos hMem]
      simp only [readLogSegments, hGone] at hLogs'
      cases hLogs'

/- A new store after its first vote. -/
def votedStore : PersistedRaftStore :=
  { PersistedRaftStore.default with vote := some firstVote }

theorem fits_votedStore :
    votedStore.Fits blankCodecs := by
  intro e hMem
  have hNone : votedStore.logs.vals = [] :=
    (vals_eq_nil_iff _).mpr rfl
  rw [hNone] at hMem
  cases hMem

end Kron
