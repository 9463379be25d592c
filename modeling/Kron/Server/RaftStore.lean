import Kron.Server.Segments

/-
  The file store of a Raft server.

  The vote, the committed position and the state machine are
  JSON files that are replaced atomically; the log is in
  segments that a manifest lists. Every call that changes the
  store writes all files again.

  Key definitions include:
    * `Kron.PersistedRaftStore`
    * `Kron.openStore`
    * `Kron.persistOps`
    * `Kron.StoreCall`
    * `Kron.storeStep`

  Key theorems include:
    * `Kron.openStore_persist`
    * `Kron.openStore_of_run`
-/

------------------------------------------------------------
-- The Store
------------------------------------------------------------

namespace Kron

structure Vote where
  term : UInt64
  nodeId : UInt64
  committed : Bool
deriving DecidableEq, Repr

structure Manifest where
  formatVersion : UInt32
  activeSnapshot : Option String
  lastPurgedLogId : Option LogId
  segments : List SegmentMeta
deriving DecidableEq, Repr

structure StoreState where
  stateMachine : PersistedStateMachine
deriving DecidableEq

structure PersistedRaftStore where
  vote : Option Vote
  committed : Option LogId
  lastPurgedLogId : Option LogId
  logs : BTreeMap UInt64 KronEntry
  stateMachine : PersistedStateMachine
deriving DecidableEq

def PersistedRaftStore.default : PersistedRaftStore where
  vote := none
  committed := none
  lastPurgedLogId := none
  logs := ∅
  stateMachine := .default

structure SnapshotMeta where
  lastLogId : Option LogId
  lastMembership : StoredMembership
  snapshotId : String
deriving DecidableEq

/- The JSON of the types that are written to files. -/
structure StoreCodecs where
  vote : JsonCodec (Option Vote)
  committed : JsonCodec (Option LogId)
  state : JsonCodec StoreState
  manifest : JsonCodec Manifest
  entry : JsonCodec KronEntry
  stateMachine : JsonCodec PersistedStateMachine

/- All values are read back as they were written. -/
structure StoreCodecs.Lossless
    (codecs : StoreCodecs) : Prop where
  vote : codecs.vote.LosslessPretty
  committed : codecs.committed.LosslessPretty
  state : codecs.state.LosslessPretty
  manifest : codecs.manifest.LosslessPretty
  entry : codecs.entry.Lossless
  stateMachine : codecs.stateMachine.Lossless

end Kron

------------------------------------------------------------
-- Files
------------------------------------------------------------

namespace Kron

open Text
open FileSystem

/- The JSON files of the store. -/
inductive StoreFile where
| vote
| committed
| state
| manifest
deriving DecidableEq, Repr

namespace StoreFile

def path : StoreFile → String
| .vote => "raft/vote.json"
| .committed => "raft/committed.json"
| .state => "raft/state.json"
| .manifest => "raft/manifest.json"

/- The path with its extension replaced by `tmp`. -/
def tmp : StoreFile → String
| .vote => "raft/vote.tmp"
| .committed => "raft/committed.tmp"
| .state => "raft/state.tmp"
| .manifest => "raft/manifest.tmp"

end StoreFile

/- The store of an older version. -/
def legacyPath : String :=
  "kron.openraft.store.json"

def writeJsonAtomic
    (file : StoreFile)
    (text : String) : List (Op String Bytes) :=
  replace file.tmp file.path (utf8 (text ++ "\n"))

def readJson
    {α : Type}
    (codec : JsonCodec α)
    (dir : StoreDir)
    (file : StoreFile) : Except StorageError α :=
  match dir[file.path]? with
  | none =>
      .error
        (corruptStore
          "No such file or directory (os error 2)")
  | some bytes =>
      match fromUtf8 bytes with
      | none =>
          .error
            (corruptStore
              "stream did not contain valid UTF-8")
      | some content =>
          match codec.fromText content with
          | .error e => .error (jsonReadError .store e)
          | .ok value => .ok value

def readJsonOptional
    {α : Type}
    (codec : JsonCodec (Option α))
    (dir : StoreDir)
    (file : StoreFile) : Except StorageError (Option α) :=
  if dir[file.path]? = none then
    .ok none
  else
    readJson codec dir file

/- A manifest that lists nothing. -/
def Manifest.initial : Manifest where
  formatVersion := storeFormatVersion
  activeSnapshot := none
  lastPurgedLogId := none
  segments := []

/- What `read_manifest` returns; see `openOps` for writes. -/
def readManifest
    (codecs : StoreCodecs)
    (dir : StoreDir) : Except StorageError Manifest :=
  if dir[StoreFile.manifest.path]? = none then
    .ok .initial
  else
    match readJson codecs.manifest dir .manifest with
    | .error e => .error e
    | .ok manifest =>
        if manifest.formatVersion ≠ storeFormatVersion then
          .error
            (corruptStore
              ("unsupported raft storage format version " ++
                toString manifest.formatVersion))
        else
          .ok manifest

def readState
    (codecs : StoreCodecs)
    (dir : StoreDir) :
    Except StorageError PersistedStateMachine :=
  if dir[StoreFile.state.path]? = none then
    .ok .default
  else
    match readJson codecs.state dir .state with
    | .error e => .error e
    | .ok state => .ok state.stateMachine

/- The files that `open` writes: a missing manifest. -/
def openOps
    (codecs : StoreCodecs)
    (dir : StoreDir) : List (Op String Bytes) :=
  if dir[legacyPath]? ≠ none then
    []
  else if dir[StoreFile.manifest.path]? = none then
    writeJsonAtomic .manifest
      (codecs.manifest.toTextPretty .initial)
  else
    []

/- The store that `open` returns. -/
def openStore
    (codecs : StoreCodecs)
    (dataDir : String)
    (dir : StoreDir) :
    Except StorageError PersistedRaftStore := do
  if dir[legacyPath]? ≠ none then
    throw
      (corruptStore
        "alpha JSON Raft storage requires manual migration")
  let manifest ← readManifest codecs dir
  let logs ←
    readLogSegments codecs.entry dataDir dir
      manifest.segments ∅
  let stateMachine ← readState codecs dir
  let vote ← readJsonOptional codecs.vote dir .vote
  let committed ←
    readJsonOptional codecs.committed dir .committed
  let store : PersistedRaftStore :=
    { vote := vote
      committed := committed
      lastPurgedLogId := manifest.lastPurgedLogId
      logs := logs
      stateMachine := stateMachine }
  return store

/- The manifest of the segments that are written. -/
def manifestOf
    (codecs : StoreCodecs)
    (store : PersistedRaftStore) : Manifest where
  formatVersion := storeFormatVersion
  activeSnapshot := none
  lastPurgedLogId := store.lastPurgedLogId
  segments :=
    (writeSegments codecs.entry store.logs.vals).segments

/-
  `rewrite_log_segments`: remove the old segments in the
  order in which they are listed, write the new ones and
  replace the manifest.
-/
def rewriteLogSegments
    (codecs : StoreCodecs)
    (order : List String)
    (store : PersistedRaftStore) :
    List (Op String Bytes) :=
  order.map .remove ++
    (writeSegments codecs.entry store.logs.vals).ops ++
    writeJsonAtomic .manifest
      (codecs.manifest.toTextPretty
        (manifestOf codecs store))

/- The file operations of `persist`. -/
def persistOps
    (codecs : StoreCodecs)
    (order : List String)
    (store : PersistedRaftStore) :
    List (Op String Bytes) :=
  writeJsonAtomic .vote
      (codecs.vote.toTextPretty store.vote) ++
    writeJsonAtomic .committed
      (codecs.committed.toTextPretty store.committed) ++
    writeJsonAtomic .state
      (codecs.state.toTextPretty
        { stateMachine := store.stateMachine }) ++
    rewriteLogSegments codecs order store

end Kron

------------------------------------------------------------
-- Calls
------------------------------------------------------------

namespace Kron

open FileSystem

/- Apply one committed entry. -/
def applyEntry
    (cal : Calendar)
    (state : PersistedStateMachine)
    (entry : KronEntry) : Option PersistedStateMachine :=
  let state :=
    { state with lastAppliedLogId := some entry.logId }
  match entry.payload with
  | .blank => some state
  | .normal command => applyKronCommand cal state command
  | .membership membership =>
      some
        { state with
          lastMembership :=
            { logId := some entry.logId
              membership := membership } }

/- Apply committed entries in order. -/
def applyEntries
    (cal : Calendar) :
    PersistedStateMachine → List KronEntry →
      Option PersistedStateMachine :=
  Machine.run (applyEntry cal)

/- The calls that change the store. -/
inductive StoreCall where
| saveVote (vote : Vote)
| saveCommitted (committed : Option LogId)
| append (entries : List KronEntry)
| truncate (logId : LogId)
| purge (logId : LogId)
| apply (entries : List KronEntry)
| installSnapshot (info : SnapshotMeta) (snapshot : Bytes)
deriving DecidableEq

/-
  What a call makes of the store in memory before it writes
  it. A panic in date arithmetic is `none`; a call that
  returns its error before it writes is an error.
-/
def StoreCall.update
    (cal : Calendar)
    (codecs : StoreCodecs)
    (store : PersistedRaftStore) :
    StoreCall →
      Option (Except StorageError PersistedRaftStore)
| .saveVote vote =>
    some (.ok { store with vote := some vote })
| .saveCommitted committed =>
    some (.ok { store with committed := committed })
| .append entries =>
    some
      (.ok
        { store with
          logs := insertEntries store.logs entries })
| .truncate logId =>
    some
      (.ok
        { store with
          logs :=
            store.logs.filter fun index _ =>
              decide (index < logId.index) })
| .purge logId =>
    some
      (.ok
        { store with
          logs :=
            store.logs.filter fun index _ =>
              decide (logId.index < index)
          lastPurgedLogId := some logId })
| .apply entries =>
    (applyEntries cal store.stateMachine entries).map
      fun state => .ok { store with stateMachine := state }
| .installSnapshot info snapshot =>
    match codecs.stateMachine.fromReader snapshot with
    | .error e => some (.error (jsonReadError .snapshot e))
    | .ok state =>
        some
          (.ok
            { store with
              stateMachine :=
                { state with
                  lastAppliedLogId := info.lastLogId
                  lastMembership := info.lastMembership } })

/- Every payload fits in a vector. -/
def PersistedRaftStore.Fits
    (codecs : StoreCodecs)
    (store : PersistedRaftStore) : Prop :=
  ∀ e ∈ store.logs.vals, FitsVec codecs.entry e

instance
    (codecs : StoreCodecs)
    (store : PersistedRaftStore) :
    Decidable (store.Fits codecs) :=
  inferInstanceAs (Decidable (∀ e ∈ _, _))

/-
  A call that completes, on the store and its directory. The
  label carries the order in which the segments are listed.
-/
def storeStep
    (cal : Calendar)
    (codecs : StoreCodecs)
    (s : PersistedRaftStore × StoreDir)
    (label : StoreCall × List String) :
    Option (PersistedRaftStore × StoreDir) :=
  match label.1.update cal codecs s.1 with
  | none => none
  | some (.error _) => some s
  | some (.ok store) =>
      if store.Fits codecs ∧
          label.2.Perm (segmentPaths s.2) then
        some
          (store,
            runAll s.2 (persistOps codecs label.2 store))
      else
        none

/- A bound of a range of indices. -/
inductive IndexBound where
| included (index : UInt64)
| excluded (index : UInt64)
| unbounded
deriving DecidableEq, Repr

/- `contains`. -/
def inRange
    (start stop : IndexBound)
    (value : UInt64) : Bool :=
  (match start with
    | .included index => decide (index ≤ value)
    | .excluded index => decide (index < value)
    | .unbounded => true) &&
  (match stop with
    | .included index => decide (value ≤ index)
    | .excluded index => decide (value < index)
    | .unbounded => true)

def tryGetLogEntries
    (store : PersistedRaftStore)
    (start stop : IndexBound) : List KronEntry :=
  (store.logs.toList.filter fun p =>
    inRange start stop p.1).map Prod.snd

structure LogState where
  lastPurgedLogId : Option LogId
  lastLogId : Option LogId
deriving DecidableEq, Repr

def getLogState
    (store : PersistedRaftStore) : LogState where
  lastPurgedLogId := store.lastPurgedLogId
  lastLogId :=
    (store.logs.vals.getLast?.map KronEntry.logId).or
      store.lastPurgedLogId

/- `get_current_snapshot`: its data and its description. -/
def getCurrentSnapshot
    (codecs : StoreCodecs)
    (store : PersistedRaftStore) : SnapshotMeta × Bytes :=
  ({ lastLogId := store.stateMachine.lastAppliedLogId
     lastMembership := store.stateMachine.lastMembership
     snapshotId :=
       "kron-" ++
         toString
           ((store.stateMachine.lastAppliedLogId.map
             LogId.index).getD 0) },
    Text.utf8
      (codecs.stateMachine.toText store.stateMachine))

end Kron

------------------------------------------------------------
-- What Open Reads
------------------------------------------------------------

namespace Kron

open Text
open FileSystem

variable {codecs : StoreCodecs}
variable {dataDir : String}
variable {dir : StoreDir}

/- The files that a directory must have to be opened. -/
structure Opens
    (codecs : StoreCodecs)
    (dataDir : String)
    (dir : StoreDir)
    (store : PersistedRaftStore)
    (manifest : Manifest) : Prop where
  legacy : dir[legacyPath]? = none
  listed : readManifest codecs dir = .ok manifest
  logs :
    readLogSegments codecs.entry dataDir dir
      manifest.segments ∅ = .ok store.logs
  state : readState codecs dir = .ok store.stateMachine
  vote :
    readJsonOptional codecs.vote dir .vote = .ok store.vote
  committed :
    readJsonOptional codecs.committed dir .committed =
      .ok store.committed
  purged : store.lastPurgedLogId = manifest.lastPurgedLogId

/- The store is read from the files one by one. -/
theorem openStore_eq_ok_iff
    (store : PersistedRaftStore) :
    openStore codecs dataDir dir = .ok store ↔
      ∃ manifest, Opens codecs dataDir dir store manifest := by
  simp only [openStore, bind, Except.bind]
  constructor
  · intro hOpen
    split at hOpen
    · cases hOpen
    · rename_i hLegacy
      split at hOpen
      · cases hOpen
      · rename_i manifest hManifest
        split at hOpen
        · cases hOpen
        · rename_i logs hLogs
          split at hOpen
          · cases hOpen
          · rename_i state hState
            split at hOpen
            · cases hOpen
            · rename_i vote hVote
              split at hOpen
              · cases hOpen
              · rename_i committed hCommitted
                cases hOpen
                exact
                  ⟨manifest, not_not.mp hLegacy, hManifest,
                    hLogs, hState, hVote, hCommitted, rfl⟩
  · rintro ⟨manifest, hOpens⟩
    rw [if_neg (not_not_intro hOpens.legacy)]
    simp only [hOpens.listed, hOpens.logs, hOpens.state,
      hOpens.vote, hOpens.committed, ← hOpens.purged]
    rfl

/- A value written by `write_json_atomic` is read back. -/
theorem readJson_of_get
    {α : Type}
    {codec : JsonCodec α}
    {file : StoreFile}
    (hLossless : codec.LosslessPretty)
    {value : α}
    (hGet :
      dir[file.path]? =
        some (utf8 (codec.toTextPretty value ++ "\n"))) :
    readJson codec dir file = .ok value := by
  simp only [readJson, hGet, fromUtf8_utf8]
  rw [hLossless value]

theorem readJsonOptional_of_get
    {α : Type}
    {codec : JsonCodec (Option α)}
    {file : StoreFile}
    (hLossless : codec.LosslessPretty)
    {value : Option α}
    (hGet :
      dir[file.path]? =
        some (utf8 (codec.toTextPretty value ++ "\n"))) :
    readJsonOptional codec dir file = .ok value := by
  unfold readJsonOptional
  rw [if_neg (by simp [hGet])]
  exact readJson_of_get hLossless hGet

theorem readManifest_of_get
    {manifest : Manifest}
    (hLossless : codecs.manifest.LosslessPretty)
    (hVersion : manifest.formatVersion = storeFormatVersion)
    (hGet :
      dir[StoreFile.manifest.path]? =
        some
          (utf8
            (codecs.manifest.toTextPretty manifest ++
              "\n"))) :
    readManifest codecs dir = .ok manifest := by
  unfold readManifest
  rw [if_neg (by simp [hGet]),
    readJson_of_get hLossless hGet]
  simp [hVersion]

theorem readState_of_get
    {state : PersistedStateMachine}
    (hLossless : codecs.state.LosslessPretty)
    (hGet :
      dir[StoreFile.state.path]? =
        some
          (utf8
            (codecs.state.toTextPretty
                { stateMachine := state } ++ "\n"))) :
    readState codecs dir = .ok state := by
  unfold readState
  rw [if_neg (by simp [hGet]),
    readJson_of_get hLossless hGet]

/- Files with the same content are read the same. -/
theorem readJsonOptional_congr
    {α : Type}
    (codec : JsonCodec (Option α))
    {dir' : StoreDir}
    {file : StoreFile}
    (hGet : dir'[file.path]? = dir[file.path]?) :
    readJsonOptional codec dir' file =
      readJsonOptional codec dir file := by
  simp only [readJsonOptional, readJson, hGet]

theorem readManifest_congr
    (codecs : StoreCodecs)
    {dir' : StoreDir}
    (hGet :
      dir'[StoreFile.manifest.path]? =
        dir[StoreFile.manifest.path]?) :
    readManifest codecs dir' = readManifest codecs dir := by
  simp only [readManifest, readJson, hGet]

theorem readState_congr
    (codecs : StoreCodecs)
    {dir' : StoreDir}
    (hGet :
      dir'[StoreFile.state.path]? =
        dir[StoreFile.state.path]?) :
    readState codecs dir' = readState codecs dir := by
  simp only [readState, readJson, hGet]

/- What is read has every entry under its index. -/
theorem keyedByIndex_readLogSegments
    {codec : JsonCodec KronEntry}
    {segments : List SegmentMeta}
    {logs logs' : BTreeMap UInt64 KronEntry}
    (hKeyed : KeyedByIndex logs)
    (hRead :
      readLogSegments codec dataDir dir segments logs =
        .ok logs') :
    KeyedByIndex logs' := by
  induction segments generalizing logs with
  | nil =>
      cases hRead
      exact hKeyed
  | cons segment segments ih =>
      simp only [readLogSegments] at hRead
      split at hRead
      · cases hRead
      · split at hRead
        · cases hRead
        · rename_i entries _
          exact
            ih (keyedByIndex_insertEntries hKeyed entries)
              hRead

end Kron

------------------------------------------------------------
-- What Persist Writes
------------------------------------------------------------

namespace Kron

open Text
open FileSystem

namespace StoreFile

theorem path_ne_tmp
    (file file' : StoreFile) :
    file'.tmp ≠ file.path := by
  cases file <;> cases file' <;> decide

theorem path_inj
    {file file' : StoreFile}
    (hEq : file'.path = file.path) :
    file' = file := by
  revert hEq
  cases file <;> cases file' <;> decide

theorem not_isSegmentPath
    (file : StoreFile) :
    isSegmentPath file.path = false ∧
      isSegmentPath file.tmp = false := by
  cases file <;> decide

theorem legacyPath_ne
    (file : StoreFile) :
    file.path ≠ legacyPath ∧ file.tmp ≠ legacyPath := by
  cases file <;> decide

end StoreFile

/- Replacing a file touches that file only. -/
theorem touches_writeJsonAtomic
    {file : StoreFile}
    {text path : String}
    {op : Op String Bytes}
    (hOp : op ∈ writeJsonAtomic file text)
    (hTouches : op.Touches path) :
    path = file.tmp ∨ path = file.path := by
  simp only [writeJsonAtomic, replace, List.mem_cons,
    List.not_mem_nil, or_false] at hOp
  rcases hOp with rfl | rfl
  · exact Or.inl hTouches.symm
  · rcases hTouches with h | h
    · exact Or.inl h.symm
    · exact Or.inr h.symm

/- Operations that keep the files of a path. -/
def Spares
    (path : String)
    (ops : List (Op String Bytes)) : Prop :=
  ∀ op ∈ ops, ¬ op.Touches path

theorem Spares.append
    {path : String}
    {ops ops' : List (Op String Bytes)}
    (hOps : Spares path ops)
    (hOps' : Spares path ops') :
    Spares path (ops ++ ops') := by
  intro op hOp
  rcases List.mem_append.mp hOp with hOld | hNew
  · exact hOps op hOld
  · exact hOps' op hNew

theorem spares_writeJsonAtomic
    {file : StoreFile}
    {path : String}
    (text : String)
    (hTmp : path ≠ file.tmp)
    (hPath : path ≠ file.path) :
    Spares path (writeJsonAtomic file text) := by
  intro op hOp hTouches
  rcases touches_writeJsonAtomic hOp hTouches with h | h
  · exact hTmp h
  · exact hPath h

theorem spares_other
    {file file' : StoreFile}
    (text : String)
    (hNe : file' ≠ file) :
    Spares file.path (writeJsonAtomic file' text) := by
  apply spares_writeJsonAtomic
  · exact fun h => StoreFile.path_ne_tmp file file' h.symm
  · exact fun h => hNe (StoreFile.path_inj h.symm)

theorem OnSegments.spares
    {ops : List (Op String Bytes)}
    {path : String}
    (hOps : OnSegments ops)
    (hPath : isSegmentPath path = false) :
    Spares path ops := by
  intro op hOp hTouches
  rw [hOps op hOp path hTouches] at hPath
  cases hPath

/- The file that an operation list replaced last. -/
theorem get_replaced
    (dir : StoreDir)
    (file : StoreFile)
    (text : String)
    (before : List (Op String Bytes))
    {after : List (Op String Bytes)}
    (hAfter : Spares file.path after) :
    (runAll dir
        (before ++ writeJsonAtomic file text ++
          after))[file.path]? =
      some (utf8 (text ++ "\n")) := by
  rw [runAll_append, runAll_get_of_untouched _ hAfter,
    runAll_append, writeJsonAtomic, runAll_replace_get,
    if_pos rfl]

variable {codecs : StoreCodecs}
variable {dir : StoreDir}
variable {order : List String}
variable {store : PersistedRaftStore}

/- Only segments are removed. -/
theorem onSegments_remove
    (hOrder : order.Perm (segmentPaths dir)) :
    OnSegments (order.map .remove) := by
  intro op hOp path hTouches
  rcases List.mem_map.mp hOp with ⟨path', hMem, rfl⟩
  have hPath : path' = path := hTouches
  rw [← hPath]
  have hListed := hOrder.mem_iff.mp hMem
  exact (List.mem_filter.mp hListed).2

theorem spares_rewriteLogSegments
    {path : String}
    (hOrder : order.Perm (segmentPaths dir))
    (hKeyed : KeyedByIndex store.logs)
    (hSegment : isSegmentPath path = false)
    (hManifest :
      path ≠ StoreFile.manifest.tmp ∧
        path ≠ StoreFile.manifest.path) :
    Spares path (rewriteLogSegments codecs order store) := by
  rcases writeSegments_chunked codecs.entry dir
      (ascending_vals hKeyed) with ⟨_, _, _, hOps⟩
  exact
    (((onSegments_remove hOrder).spares hSegment).append
      (hOps.spares hSegment)).append
      (spares_writeJsonAtomic _ hManifest.1 hManifest.2)

/- The rewriting of the log keeps the other files. -/
theorem spares_rewrite_file
    (hOrder : order.Perm (segmentPaths dir))
    (hKeyed : KeyedByIndex store.logs)
    {file : StoreFile}
    (hNe : file ≠ .manifest) :
    Spares file.path
      (rewriteLogSegments codecs order store) := by
  apply spares_rewriteLogSegments hOrder hKeyed
    (StoreFile.not_isSegmentPath file).1
  exact
    ⟨fun h => StoreFile.path_ne_tmp file .manifest h.symm,
      fun h => hNe (StoreFile.path_inj h)⟩

/- No operation writes the file of an older store. -/
theorem spares_legacy
    (hOrder : order.Perm (segmentPaths dir))
    (hKeyed : KeyedByIndex store.logs) :
    Spares legacyPath (persistOps codecs order store) := by
  have hFile := StoreFile.legacyPath_ne
  have hAtomic :
      ∀ (file : StoreFile) (text : String),
        Spares legacyPath (writeJsonAtomic file text) :=
    fun file text =>
      spares_writeJsonAtomic text (hFile file).2.symm
        (hFile file).1.symm
  exact
    (((hAtomic _ _).append (hAtomic _ _)).append
      (hAtomic _ _)).append
      (spares_rewriteLogSegments hOrder hKeyed (by decide)
        ⟨(hFile .manifest).2.symm,
          (hFile .manifest).1.symm⟩)

/- The entries of the log are in the segments of the manifest. -/
theorem holds_persist
    (hKeyed : KeyedByIndex store.logs)
    (before : List (Op String Bytes)) :
    ∃ chunks,
      chunks.flatten = store.logs.vals ∧
        List.Forall₂
          (SegmentHolds codecs.entry
            (runAll dir
              (before ++
                (writeSegments codecs.entry
                  store.logs.vals).ops ++
                writeJsonAtomic .manifest
                  (codecs.manifest.toTextPretty
                    (manifestOf codecs store)))))
          (manifestOf codecs store).segments chunks := by
  rcases writeSegments_chunked codecs.entry
      (runAll dir before) (ascending_vals hKeyed) with
    ⟨chunks, hChunks, hHolds, _⟩
  refine ⟨chunks, hChunks, hHolds.imp ?_⟩
  intro segment chunk hSegment
  refine ⟨hSegment.named, hSegment.starts, ?_⟩
  have hPath :
      isSegmentPath (logPath segment.file) = true := by
    rw [hSegment.named]
    exact isSegmentPath_segmentFileName _ _
  have hNe :
      ∀ path, isSegmentPath path = false →
        logPath segment.file ≠ path := by
    intro path hFalse hEq
    rw [← hEq, hPath] at hFalse
    cases hFalse
  have hFiles :=
    StoreFile.not_isSegmentPath StoreFile.manifest
  rw [runAll_append, runAll_append,
    runAll_get_of_untouched _
      (spares_writeJsonAtomic _ (hNe _ hFiles.2)
        (hNe _ hFiles.1))]
  exact hSegment.content

/- The log is read back from the segments that are written. -/
theorem readLogSegments_persist
    (dataDir : String)
    (hLossless : codecs.Lossless)
    (hKeyed : KeyedByIndex store.logs)
    (hFits : store.Fits codecs)
    (before : List (Op String Bytes)) :
    readLogSegments codecs.entry dataDir
        (runAll dir
          (before ++
            (writeSegments codecs.entry
              store.logs.vals).ops ++
            writeJsonAtomic .manifest
              (codecs.manifest.toTextPretty
                (manifestOf codecs store))))
        (manifestOf codecs store).segments ∅ =
      .ok store.logs := by
  rcases holds_persist hKeyed before with
    ⟨chunks, hChunks, hHolds⟩
  rw [readLogSegments_of_chunks hLossless.entry dataDir
    hHolds, hChunks, insertEntries_vals hKeyed]
  rw [hChunks]
  exact hFits

/- The operations around those of the segments. -/
theorem persistOps_segments
    (codecs : StoreCodecs)
    (order : List String)
    (store : PersistedRaftStore) :
    persistOps codecs order store =
      (writeJsonAtomic .vote
            (codecs.vote.toTextPretty store.vote) ++
          writeJsonAtomic .committed
            (codecs.committed.toTextPretty
              store.committed) ++
          writeJsonAtomic .state
            (codecs.state.toTextPretty
              { stateMachine := store.stateMachine }) ++
          order.map .remove) ++
        (writeSegments codecs.entry store.logs.vals).ops ++
        writeJsonAtomic .manifest
          (codecs.manifest.toTextPretty
            (manifestOf codecs store)) := by
  simp only [persistOps, rewriteLogSegments,
    List.append_assoc]

/-
  A directory to which a store has been written opens as that
  store.
-/
theorem openStore_persist
    (dataDir : String)
    (hLossless : codecs.Lossless)
    (hLegacy : dir[legacyPath]? = none)
    (hOrder : order.Perm (segmentPaths dir))
    (hKeyed : KeyedByIndex store.logs)
    (hFits : store.Fits codecs) :
    Opens codecs dataDir
      (runAll dir (persistOps codecs order store)) store
      (manifestOf codecs store) := by
  have hRewrite :
      ∀ file : StoreFile, file ≠ .manifest →
        Spares file.path
          (rewriteLogSegments codecs order store) :=
    fun _ hNe => spares_rewrite_file hOrder hKeyed hNe
  constructor
  · rw [runAll_get_of_untouched dir
      (spares_legacy hOrder hKeyed)]
    exact hLegacy
  · apply readManifest_of_get hLossless.manifest rfl
    have hOps :
        persistOps codecs order store =
          (writeJsonAtomic .vote
                (codecs.vote.toTextPretty store.vote) ++
              writeJsonAtomic .committed
                (codecs.committed.toTextPretty
                  store.committed) ++
              writeJsonAtomic .state
                (codecs.state.toTextPretty
                  { stateMachine := store.stateMachine }) ++
              (order.map .remove ++
                (writeSegments codecs.entry
                  store.logs.vals).ops)) ++
            writeJsonAtomic .manifest
              (codecs.manifest.toTextPretty
                (manifestOf codecs store)) ++ [] := by
      simp only [persistOps, rewriteLogSegments,
        List.append_assoc, List.append_nil]
    rw [hOps]
    apply get_replaced
    intro op hOp
    cases hOp
  · rw [persistOps_segments]
    exact
      readLogSegments_persist dataDir hLossless hKeyed
        hFits _
  · apply readState_of_get hLossless.state
    unfold persistOps
    apply get_replaced
    exact hRewrite .state (by decide)
  · apply readJsonOptional_of_get hLossless.vote
    have hOps :
        persistOps codecs order store =
          [] ++
            writeJsonAtomic .vote
              (codecs.vote.toTextPretty store.vote) ++
            (writeJsonAtomic .committed
                (codecs.committed.toTextPretty
                  store.committed) ++
              (writeJsonAtomic .state
                  (codecs.state.toTextPretty
                    { stateMachine :=
                        store.stateMachine }) ++
                rewriteLogSegments codecs order store)) := by
      simp only [persistOps, List.append_assoc,
        List.nil_append]
    rw [hOps]
    apply get_replaced
    exact
      (spares_other _ (by decide)).append
        ((spares_other _ (by decide)).append
          (hRewrite .vote (by decide)))
  · apply readJsonOptional_of_get hLossless.committed
    have hOps :
        persistOps codecs order store =
          writeJsonAtomic .vote
              (codecs.vote.toTextPretty store.vote) ++
            writeJsonAtomic .committed
              (codecs.committed.toTextPretty
                store.committed) ++
            (writeJsonAtomic .state
                (codecs.state.toTextPretty
                  { stateMachine :=
                      store.stateMachine }) ++
              rewriteLogSegments codecs order store) := by
      simp only [persistOps, List.append_assoc]
    rw [hOps]
    apply get_replaced
    exact
      (spares_other _ (by decide)).append
        (hRewrite .committed (by decide))
  · rfl

end Kron

------------------------------------------------------------
-- Reopening The Store
------------------------------------------------------------

namespace Kron

open Text
open FileSystem

variable {codecs : StoreCodecs}
variable {dataDir : String}
variable {dir : StoreDir}

theorem Opens.keyed
    {store : PersistedRaftStore}
    {manifest : Manifest}
    (hOpens : Opens codecs dataDir dir store manifest) :
    KeyedByIndex store.logs :=
  keyedByIndex_readLogSegments keyedByIndex_empty
    hOpens.logs

/- Opening does not change what the next opening reads. -/
theorem opens_openOps
    {store : PersistedRaftStore}
    {manifest : Manifest}
    (hLossless : codecs.Lossless)
    (hOpens : Opens codecs dataDir dir store manifest) :
    Opens codecs dataDir (runAll dir (openOps codecs dir))
      store manifest := by
  unfold openOps
  rw [if_neg (not_not_intro hOpens.legacy)]
  by_cases hMissing : dir[StoreFile.manifest.path]? = none
  · rw [if_pos hMissing]
    have hInitial : manifest = .initial := by
      have hListed := hOpens.listed
      unfold readManifest at hListed
      rw [if_pos hMissing] at hListed
      cases hListed
      rfl
    subst hInitial
    have hOther :
        ∀ file : StoreFile, file ≠ .manifest →
          (runAll dir
              (writeJsonAtomic .manifest
                (codecs.manifest.toTextPretty
                  .initial)))[file.path]? =
            dir[file.path]? := by
      intro file hNe
      exact
        runAll_get_of_untouched dir
          (spares_other _ hNe.symm)
    have hLegacy := StoreFile.legacyPath_ne .manifest
    constructor
    · rw [runAll_get_of_untouched dir
        (spares_writeJsonAtomic _ hLegacy.2.symm
          hLegacy.1.symm)]
      exact hOpens.legacy
    · apply readManifest_of_get hLossless.manifest rfl
      rw [writeJsonAtomic, runAll_replace_get, if_pos rfl]
    · exact hOpens.logs
    · rw [readState_congr codecs
        (hOther .state (by decide))]
      exact hOpens.state
    · rw [readJsonOptional_congr codecs.vote
        (hOther .vote (by decide))]
      exact hOpens.vote
    · rw [readJsonOptional_congr codecs.committed
        (hOther .committed (by decide))]
      exact hOpens.committed
    · exact hOpens.purged
  · rw [if_neg hMissing]
    exact hOpens

/- Calls store entries under their indices. -/
theorem keyedByIndex_update
    {cal : Calendar}
    {store store' : PersistedRaftStore}
    {call : StoreCall}
    (hKeyed : KeyedByIndex store.logs)
    (hUpdate :
      call.update cal codecs store = some (.ok store')) :
    KeyedByIndex store'.logs := by
  cases call with
  | saveVote vote =>
      cases hUpdate
      exact hKeyed
  | saveCommitted committed =>
      cases hUpdate
      exact hKeyed
  | append entries =>
      cases hUpdate
      exact keyedByIndex_insertEntries hKeyed entries
  | truncate logId =>
      cases hUpdate
      exact keyedByIndex_filter hKeyed _
  | purge logId =>
      cases hUpdate
      exact keyedByIndex_filter hKeyed _
  | apply entries =>
      rcases Option.map_eq_some_iff.mp hUpdate with
        ⟨state, _, hStore⟩
      cases hStore
      exact hKeyed
  | installSnapshot info snapshot =>
      simp only [StoreCall.update] at hUpdate
      split at hUpdate
      · cases hUpdate
      · cases hUpdate
        exact hKeyed

/- The two ways in which a call completes. -/
theorem storeStep_cases
    {cal : Calendar}
    {s s' : PersistedRaftStore × StoreDir}
    {label : StoreCall × List String}
    (hStep : storeStep cal codecs s label = some s') :
    (∃ e,
        label.1.update cal codecs s.1 = some (.error e) ∧
          s' = s) ∨
      ∃ store,
        label.1.update cal codecs s.1 =
            some (.ok store) ∧
          store.Fits codecs ∧
          label.2.Perm (segmentPaths s.2) ∧
          s' =
            (store,
              runAll s.2
                (persistOps codecs label.2 store)) := by
  simp only [storeStep] at hStep
  split at hStep
  · cases hStep
  · rename_i e hUpdate
    cases hStep
    exact Or.inl ⟨e, hUpdate, rfl⟩
  · rename_i store hUpdate
    split at hStep
    · rename_i hBoth
      cases hStep
      exact
        Or.inr ⟨store, hUpdate, hBoth.1, hBoth.2, rfl⟩
    · cases hStep

/- A completed call leaves a directory that opens as the store. -/
theorem opens_storeStep
    {cal : Calendar}
    {s s' : PersistedRaftStore × StoreDir}
    {label : StoreCall × List String}
    (hLossless : codecs.Lossless)
    (hOpens :
      ∃ manifest, Opens codecs dataDir s.2 s.1 manifest)
    (hStep : storeStep cal codecs s label = some s') :
    ∃ manifest, Opens codecs dataDir s'.2 s'.1 manifest := by
  rcases storeStep_cases hStep with
    ⟨_, _, rfl⟩ | ⟨store, hUpdate, hFits, hOrder, rfl⟩
  · exact hOpens
  · rcases hOpens with ⟨manifest, hOpens⟩
    have hKeyed := keyedByIndex_update hOpens.keyed hUpdate
    have hAfter :=
      openStore_persist dataDir hLossless hOpens.legacy
        hOrder hKeyed hFits
    exact ⟨_, hAfter⟩

/-
  After any completed calls on a store that was opened, the
  directory opens as the store in memory, and its log is read
  the same.
-/
theorem openStore_of_run
    (cal : Calendar)
    (codecs : StoreCodecs)
    (hLossless : codecs.Lossless)
    (dataDir : String)
    (dir dir' : StoreDir)
    (store store' : PersistedRaftStore)
    (labels : List (StoreCall × List String))
    (hOpen : openStore codecs dataDir dir = .ok store)
    (hRun :
      Machine.run (storeStep cal codecs)
          (store, runAll dir (openOps codecs dir)) labels =
        some (store', dir')) :
    ∃ reopened,
      openStore codecs dataDir dir' = .ok reopened ∧
        reopened = store' ∧
        getLogState reopened = getLogState store' ∧
        ∀ start stop,
          tryGetLogEntries reopened start stop =
            tryGetLogEntries store' start stop := by
  rcases (openStore_eq_ok_iff store).mp hOpen with
    ⟨manifest, hOpens⟩
  have hEnd :
      ∃ manifest,
        Opens codecs dataDir dir' store' manifest :=
    Machine.run_invariant
      (fun s : PersistedRaftStore × StoreDir =>
        ∃ manifest, Opens codecs dataDir s.2 s.1 manifest)
      (fun _ _ _ hInv _ hStep =>
        opens_storeStep hLossless hInv hStep)
      ⟨manifest, opens_openOps hLossless hOpens⟩
      (Machine.meets_of_forall (fun _ _ => True) _
        (fun _ _ _ => trivial)) hRun
  exact
    ⟨store', (openStore_eq_ok_iff store').mpr hEnd, rfl,
      rfl, fun _ _ => rfl⟩

end Kron

------------------------------------------------------------
-- Stores With Blank Entries
------------------------------------------------------------

namespace Kron

open Text
open FileSystem

deriving instance Countable for TimerTarget
deriving instance Countable for DistributedTimerSpec
deriving instance Countable for WorkerRun
deriving instance Countable for NodeInfo
deriving instance Countable for RaftCommand
deriving instance Countable for LogId
deriving instance Countable for Membership
deriving instance Countable for StoredMembership
deriving instance Countable for PersistedTimer
deriving instance Countable for PersistedActiveRun
deriving instance Countable for PersistedWorker
deriving instance Countable for RunRecord
deriving instance Countable for HistoryEntry
deriving instance Countable for PersistedStateMachine
deriving instance Countable for EntryPayload
deriving instance Countable for KronEntry
deriving instance Countable for SegmentMeta
deriving instance Countable for Vote
deriving instance Countable for Manifest
deriving instance Countable for StoreState

/- A position in the first term of node one. -/
def firstTerm
    (index : UInt64) : LogId where
  term := 1
  nodeId := 1
  index := index

def blankEntry
    (index : UInt64) : KronEntry where
  logId := firstTerm index
  payload := .blank

/- The members of the JSON of `blankEntry`. -/
def blankMembers
    (index : String) : String :=
  "\"log_id\":\x7b\"leader_id\":" ++
    "\x7b\"term\":1,\"node_id\":1\x7d,\"index\":" ++
    index ++ "\x7d,\"payload\":\"Blank\""

def blankRows : List (KronEntry × String) :=
  [(blankEntry 1, blankMembers "1"),
    (blankEntry 2, blankMembers "2")]

theorem blankRows_bytes :
    (∀ bs ∈ objectBytes blankRows, 35 ∉ bs) ∧
      (objectBytes blankRows).Pairwise SuffixFree := by
  simp only [objectBytes, blankRows, List.map_cons,
    List.map_nil, List.forall_mem_cons,
    List.pairwise_cons]
  unfold braces blankMembers
  simp only [utf8_append]
  decide +kernel

/- The vote of node one for itself in its first term. -/
def firstVote : Vote where
  term := 1
  nodeId := 1
  committed := false

def voteRows : List (Vote × String) :=
  [(firstVote,
    "\n  \"leader_id\": \x7b\n    \"term\": 1,\n" ++
      "    \"node_id\": 1\n  \x7d,\n" ++
      "  \"committed\": false\n")]

def positionRows : List (LogId × String) :=
  [(firstTerm 1,
    "\n  \"leader_id\": \x7b\n    \"term\": 1,\n" ++
      "    \"node_id\": 1\n  \x7d,\n  \"index\": 1\n")]

/- The manifest that lists one segment with one entry. -/
def oneSegment : Manifest where
  formatVersion := storeFormatVersion
  activeSnapshot := none
  lastPurgedLogId := none
  segments :=
    [{ firstIndex := 1
       lastIndex := 1
       file := segmentFileName 1 1 }]

def manifestMembers
    (segments : String) : String :=
  "\n  \"format_version\": 1,\n" ++
    "  \"active_snapshot\": null,\n" ++
    "  \"last_purged_log_id\": null,\n" ++
    "  \"segments\": " ++ segments ++ "\n"

def manifestRows : List (Manifest × String) :=
  [(.initial, manifestMembers "[]"),
    (oneSegment,
      manifestMembers
        ("[\n    \x7b\n      \"first_index\": 1,\n" ++
          "      \"last_index\": 1,\n" ++
          "      \"file\": \"0000000000000001-" ++
          "0000000000000001.seg\"\n    \x7d\n  ]"))]

/- The state machine after the first entry. -/
def firstApplied : PersistedStateMachine :=
  { PersistedStateMachine.default with
    lastAppliedLogId := some (firstTerm 1) }

/- The members of the indented JSON of a stored state. -/
def stateMembers
    (lastApplied : String) : String :=
  "\n  \"state_machine\": \x7b\n" ++
    "    \"last_applied_log_id\": " ++ lastApplied ++
    ",\n    \"last_membership\": \x7b\n" ++
    "      \"log_id\": null,\n" ++
    "      \"membership\": \x7b\n" ++
    "        \"configs\": [],\n" ++
    "        \"nodes\": \x7b\x7d\n" ++
    "      \x7d\n    \x7d,\n" ++
    "    \"timers\": \x7b\x7d,\n" ++
    "    \"next_runs\": \x7b\x7d,\n" ++
    "    \"pending\": [],\n" ++
    "    \"active_runs\": \x7b\x7d,\n" ++
    "    \"workers\": \x7b\x7d,\n" ++
    "    \"nodes\": \x7b\x7d,\n" ++
    "    \"history\": []\n  \x7d\n"

def stateRows : List (StoreState × String) :=
  [({ stateMachine := .default }, stateMembers "null"),
    ({ stateMachine := firstApplied },
      stateMembers
        ("\x7b\n      \"leader_id\": \x7b\n" ++
          "        \"term\": 1,\n" ++
          "        \"node_id\": 1\n      \x7d,\n" ++
          "      \"index\": 1\n    \x7d"))]

/- The members of the compact JSON of a state machine. -/
def machineMembers
    (lastApplied : String) : String :=
  "\"last_applied_log_id\":" ++ lastApplied ++ "," ++
    "\"last_membership\":\x7b\"log_id\":null," ++
    "\"membership\":\x7b\"configs\":[]," ++
    "\"nodes\":\x7b\x7d\x7d\x7d," ++
    "\"timers\":\x7b\x7d,\"next_runs\":\x7b\x7d," ++
    "\"pending\":[],\"active_runs\":\x7b\x7d," ++
    "\"workers\":\x7b\x7d,\"nodes\":\x7b\x7d," ++
    "\"history\":[]"

def machineRows : List (PersistedStateMachine × String) :=
  [(.default, machineMembers "null"),
    (firstApplied,
      machineMembers
        ("\x7b\"leader_id\":\x7b\"term\":1," ++
          "\"node_id\":1\x7d,\"index\":1\x7d"))]

theorem singleRows_bytes :
    (∀ bs ∈ objectBytes voteRows, 35 ∉ bs) ∧
      ∀ bs ∈ objectBytes positionRows, 35 ∉ bs := by
  simp only [objectBytes, voteRows, positionRows,
    List.map_cons, List.map_nil, List.forall_mem_cons]
  unfold braces
  simp only [utf8_append]
  decide +kernel

theorem stateRows_bytes :
    (∀ bs ∈ objectBytes stateRows, 35 ∉ bs) ∧
      (objectBytes stateRows).Pairwise SuffixFree := by
  simp only [objectBytes, stateRows, List.map_cons,
    List.map_nil, List.forall_mem_cons,
    List.pairwise_cons]
  unfold braces stateMembers
  simp only [utf8_append]
  decide +kernel

theorem machineRows_bytes :
    (∀ bs ∈ objectBytes machineRows, 35 ∉ bs) ∧
      (objectBytes machineRows).Pairwise SuffixFree := by
  simp only [objectBytes, machineRows, List.map_cons,
    List.map_nil, List.forall_mem_cons,
    List.pairwise_cons]
  unfold braces machineMembers
  simp only [utf8_append]
  decide +kernel

theorem manifestRows_bytes :
    (∀ bs ∈ objectBytes manifestRows, 35 ∉ bs) ∧
      (objectBytes manifestRows).Pairwise SuffixFree := by
  simp only [objectBytes, manifestRows, List.map_cons,
    List.map_nil, List.forall_mem_cons,
    List.pairwise_cons]
  unfold braces manifestMembers
  simp only [utf8_append]
  decide +kernel

theorem blankRows_ok :
    TableOk (objectTable blankRows) :=
  tableOk_of_bytes blankRows_bytes.1 blankRows_bytes.2

/- A codec that writes these stores as the real one does. -/
noncomputable def blankCodecs : StoreCodecs where
  vote := optionCodec (tableCodec (objectTable voteRows))
  committed :=
    optionCodec (tableCodec (objectTable positionRows))
  state := tableCodec (objectTable stateRows)
  manifest := tableCodec (objectTable manifestRows)
  entry := tableCodec (objectTable blankRows)
  stateMachine := tableCodec (objectTable machineRows)

theorem blankCodecs_lossless :
    blankCodecs.Lossless where
  vote :=
    optionCodec_losslessPretty
      (tableOk_of_bytes singleRows_bytes.1
        (by simp [objectBytes, voteRows]))
  committed :=
    optionCodec_losslessPretty
      (tableOk_of_bytes singleRows_bytes.2
        (by simp [objectBytes, positionRows]))
  state :=
    tableCodec_losslessPretty
      (tableOk_of_bytes stateRows_bytes.1
        stateRows_bytes.2)
  manifest :=
    tableCodec_losslessPretty
      (tableOk_of_bytes manifestRows_bytes.1
        manifestRows_bytes.2)
  entry := tableCodec_lossless blankRows_ok
  stateMachine :=
    tableCodec_lossless
      (tableOk_of_bytes machineRows_bytes.1
        machineRows_bytes.2)

/- The directory of a store that was opened first. -/
noncomputable def freshDir : StoreDir :=
  runAll ∅ (openOps blankCodecs ∅)

theorem openStore_empty
    (codecs : StoreCodecs)
    (dataDir : String) :
    openStore codecs dataDir ∅ = .ok .default := by
  rw [openStore_eq_ok_iff]
  refine ⟨.initial, ?_⟩
  constructor <;>
    simp [readManifest, readState, readJsonOptional,
      readLogSegments, PersistedRaftStore.default,
      Manifest.initial]

theorem fitsVec_blankEntry :
    FitsVec blankCodecs.entry (blankEntry 1) := by
  have hChars :
      tableChars (objectTable blankRows) (blankEntry 1) =
        (braces (blankMembers "1")).toList := by
    simp [tableChars, objectTable, blankRows]
  have hText :
      blankCodecs.entry.toText (blankEntry 1) =
        braces (blankMembers "1") := by
    simp only [blankCodecs, tableCodec, hChars,
      String.ofList_toList]
  unfold FitsVec payloadOf
  rw [hText]
  unfold braces blankMembers
  simp only [utf8_append]
  decide +kernel

/- The store after its first entry. -/
def oneEntry : PersistedRaftStore :=
  { PersistedRaftStore.default with
    logs := insertEntries ∅ [blankEntry 1] }

theorem vals_oneEntry
    {e : KronEntry}
    (hMem : e ∈ oneEntry.logs.vals) :
    e = blankEntry 1 := by
  rcases (BTreeMap.mem_vals_iff _ _).mp hMem with
    ⟨index, hGet⟩
  have hInsert :
      oneEntry.logs =
        (∅ : BTreeMap UInt64 KronEntry).insert 1
          (blankEntry 1) := rfl
  rw [hInsert, BTreeMap.get_insert] at hGet
  split at hGet
  · exact (Option.some.inj hGet).symm
  · simp at hGet

theorem fits_oneEntry :
    oneEntry.Fits blankCodecs := by
  intro e hMem
  rw [vals_oneEntry hMem]
  exact fitsVec_blankEntry

/- The directory after the first entry. -/
noncomputable def oneEntryDir : StoreDir :=
  runAll freshDir
    (persistOps blankCodecs (segmentPaths freshDir)
      oneEntry)

theorem storeStep_oneEntry :
    storeStep utcCalendar blankCodecs
        (.default, freshDir)
        (.append [blankEntry 1], segmentPaths freshDir) =
      some (oneEntry, oneEntryDir) := by
  simp only [storeStep, StoreCall.update]
  rw [if_pos ⟨fits_oneEntry, List.Perm.refl _⟩]
  rfl

/- An entry and a vote survive a restart. -/
theorem openStore_of_oneEntry :
    ∃ dir',
      openStore blankCodecs "/data" ∅ = .ok .default ∧
        Machine.run (storeStep utcCalendar blankCodecs)
            (.default, runAll ∅ (openOps blankCodecs ∅))
            [(.append [blankEntry 1],
                segmentPaths freshDir),
              (.saveVote firstVote,
                segmentPaths oneEntryDir)] =
          some
            ({ oneEntry with vote := some firstVote },
              dir') ∧
        ∃ reopened,
          openStore blankCodecs "/data" dir' =
              .ok reopened ∧
            reopened =
              { oneEntry with vote := some firstVote } := by
  have hSecond :
      storeStep utcCalendar blankCodecs
          (oneEntry, oneEntryDir)
          (.saveVote firstVote, segmentPaths oneEntryDir) =
        some
          ({ oneEntry with vote := some firstVote },
            runAll oneEntryDir
              (persistOps blankCodecs
                (segmentPaths oneEntryDir)
                { oneEntry with
                  vote := some firstVote })) := by
    simp only [storeStep, StoreCall.update]
    rw [if_pos ⟨fits_oneEntry, List.Perm.refl _⟩]
  have hRun :
      Machine.run (storeStep utcCalendar blankCodecs)
          (.default, runAll ∅ (openOps blankCodecs ∅))
          [(.append [blankEntry 1],
              segmentPaths freshDir),
            (.saveVote firstVote,
              segmentPaths oneEntryDir)] =
        some
          ({ oneEntry with vote := some firstVote },
            runAll oneEntryDir
              (persistOps blankCodecs
                (segmentPaths oneEntryDir)
                { oneEntry with
                  vote := some firstVote })) := by
    have hFirst := storeStep_oneEntry
    unfold freshDir at hFirst
    simp only [Machine.run, hSecond, freshDir, hFirst]
  have hOpen := openStore_empty blankCodecs "/data"
  rcases openStore_of_run utcCalendar blankCodecs
      blankCodecs_lossless "/data" ∅ _ .default _ _ hOpen
      hRun with
    ⟨reopened, hReopen, hEq, _, _⟩
  exact ⟨_, hOpen, hRun, reopened, hReopen, hEq⟩

end Kron
