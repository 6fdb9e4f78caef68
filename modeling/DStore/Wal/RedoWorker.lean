import DStore.Wal.RedoDispatch

/-!
# Parallel redo workers

Each redo worker takes up to a hundred entries at a time from its queue and goes through them. A
page worker redoes runs of entries for one page as a batch. The DDL worker keeps a waiting list for
each tablespace, since a tablespace record may have to wait for a record of another log stream;
what is left in the lists is tried again when no entries come in.

Both kinds are machines over the local variables of the source. `fetched` holds the entries of the
current turn that the loop has not reached, and `applied` is a history variable: the entries that
were redone or found not to need it.
-/

namespace DStore

open RedoWalRecordEntry Option

/-- `MAX_BATCH_RECORD_NUM`. -/
def maxBatchRecordNum : ℕ := 100

/-- `MAX_TABLESPACE_ID`. -/
def maxTablespaceId : ℕ := 1024

/-- `INVALID_TABLESPACE_ID`. -/
def invalidTablespaceId : ℕ := 0

/-- `INVALID_PAGE_ID`. -/
def invalidPageId : PageId := ⟨0, 0xFFFFFFFF⟩

/-- `PageId::IsValid`. -/
def PageId.isValid (pageId : PageId) : Bool :=
  pageId.fileId ≠ 0 && pageId.blockId ≠ 0xFFFFFFFF

/-- What `ParallelRedoWorker` keeps for both kinds of workers; `maxWalRecoveryPlsn` is the local
variable of `ProcAllGetRedoWalRecordEntrys`. -/
structure ParallelRedoWorker where
  redoQueue : List RedoWalRecordEntry
  fetched : List RedoWalRecordEntry
  maxRedoPlsn : ℕ
  maxPlsnSyncer : ℕ
  maxRecoveryPlsn : ℕ
  maxWalRecoveryPlsn : ℕ
  applied : List RedoWalRecordEntry

/-- A worker that was just created. -/
def ParallelRedoWorker.init : ParallelRedoWorker := ⟨[], [], 0, 0, 0, 0, []⟩

/-- What a worker does next: `GetN`, the branch for an empty queue, one turn of the loop over the
fetched entries, the redo of one entry, the end of a `RedoBatch`, `AddWalRecord`, and for the DDL
worker the redo of a waiting list while no entries come in. -/
inductive WorkerAction where
  | getN (num : ℕ)
  | noRecord
  | take
  | redo
  | finish
  | add
  | scan (tbsId : ℕ)
deriving DecidableEq, Repr

/-! ## The page worker -/

/-- Where a page worker stands: at the top of `WorkerMain`, in the loop over the fetched entries, or
in `RedoBatch`. -/
inductive PageRedoMode where
  | main
  | loop
  | redo
deriving DecidableEq, Repr

/-- `ParallelPageRedoWorker` with its `batchRecoveryPara`: `batch` are the entries from `redoPos`
on, and `redone` is the end plsn of the entry before `redoPos`. -/
structure ParallelPageRedoWorker extends ParallelRedoWorker where
  mode : PageRedoMode
  batch : List RedoWalRecordEntry
  redone : Option ℕ
  pageId : PageId
  prevFileVersion : UInt64

namespace ParallelPageRedoWorker

variable (cfg : RedoConfig) (worker : ParallelPageRedoWorker)

/-- A page worker that was just created. -/
def init : ParallelPageRedoWorker :=
  ⟨ParallelRedoWorker.init, .main, [], none, invalidPageId, invalidFileVersion⟩

/-- `ParallelRedoWorker::UpdateMaxRedoPlsn`. -/
def updateMaxRedoPlsn (plsn : ℕ) : ParallelPageRedoWorker :=
  { worker with maxRedoPlsn := max worker.maxRedoPlsn plsn }

/-- `WalBatchRecoveryPara::AddWalRecord` of the entry the loop has reached. -/
def addWalRecord (entry : RedoWalRecordEntry)
    (record : RedoWalRecord) (rest : List RedoWalRecordEntry) : ParallelPageRedoWorker :=
  { worker with
    fetched := rest
    mode := .loop
    batch := worker.batch ++ [entry]
    pageId := record.pageId
    prevFileVersion := record.filePreVersion }

/-- `GetN` and the start of `ProcAllGetRedoWalRecordEntrys`. -/
def getN (num : ℕ) (worker : ParallelPageRedoWorker) : Option ParallelPageRedoWorker :=
  if worker.mode = .main ∧ 0 < num ∧ num ≤ maxRedoQueBatchNum ∧ num ≤ worker.redoQueue.length then
    some { worker with
      redoQueue := worker.redoQueue.drop num
      fetched := worker.redoQueue.take num
      maxWalRecoveryPlsn := invalidPlsn
      mode := .loop
      batch := []
      redone := none
      pageId := invalidPageId
      prevFileVersion := invalidFileVersion }
  else none

/-- `ParallelPageRedoWorker::ProcNoRedoWalRecordComing`. -/
def noRecord : Option ParallelPageRedoWorker :=
  if worker.mode = .main ∧ worker.redoQueue = [] then
    some (worker.updateMaxRedoPlsn worker.maxPlsnSyncer)
  else none

/-- The batch is redone before a record of another page or file version, or when it is full. -/
def batchEnds (record : RedoWalRecord) : Bool :=
  (record.pageId ≠ worker.pageId && worker.pageId.isValid) ||
    maxBatchRecordNum - 1 ≤ worker.batch.length || record.filePreVersion ≠ worker.prevFileVersion

/-- One turn of the loop in `ParallelPageRedoWorker::ProcAllGetRedoWalRecordEntrys`, up to the call
of `RedoBatch`; the entry for which the batch is redone stays at the front. -/
def take : Option ParallelPageRedoWorker :=
  if worker.mode ≠ .loop then none
  else
    match worker.fetched with
    | [] => some { worker with mode := .redo }
    | entry :: rest =>
      match entry.walRecord with
      | none =>
        some { worker with
          fetched := rest
          maxPlsnSyncer := max worker.maxPlsnSyncer entry.recordEndPlsn }
      | some record =>
        if record.type = .barrierCsn then
          some { worker with
            fetched := rest
            maxWalRecoveryPlsn :=
              max worker.maxWalRecoveryPlsn (entry.groupStartPlsn cfg.walFileSize) }
        else if worker.batchEnds record then some { worker with mode := .redo }
        else some (worker.addWalRecord entry record rest)

/-- The redo of one entry in `RedoBatchForPage`. -/
def redo : Option ParallelPageRedoWorker :=
  if worker.mode ≠ .redo then none
  else
    match worker.batch with
    | [] => none
    | entry :: rest =>
      some { worker with
        batch := rest
        redone := some entry.recordEndPlsn
        applied := worker.applied ++ [entry] }

/-- After `RedoBatch`: `UpdateMaxRedoPlsn` if an entry was redone, `UpdateMaxRecoveryPlsn` and
`ClearBatchRecoveryPara`. -/
def marked : ParallelPageRedoWorker :=
  { worker with
    maxRedoPlsn := max worker.maxRedoPlsn (worker.redone.getD 0)
    maxRecoveryPlsn := max worker.maxRecoveryPlsn worker.maxWalRecoveryPlsn
    redone := none
    pageId := invalidPageId }

/-- The end of a `RedoBatch`, then the entry for which the batch was redone or the end of the
turn. -/
def finish : Option ParallelPageRedoWorker :=
  if worker.mode ≠ .redo ∨ worker.batch ≠ [] then none
  else
    match worker.fetched with
    | [] => some { worker.marked with mode := .main }
    | entry :: rest =>
      match entry.walRecord with
      | none => none
      | some record => some (worker.marked.addWalRecord entry record rest)

/-- One step of a page worker. -/
def step (cfg : RedoConfig) (action : WorkerAction) (worker : ParallelPageRedoWorker) :
    Option ParallelPageRedoWorker :=
  match action with
  | .getN num => worker.getN num
  | .noRecord => worker.noRecord
  | .take => worker.take cfg
  | .redo => worker.redo
  | .finish => worker.finish
  | .add | .scan _ => none

/-- What a step of a page worker can do. -/
inductive Steps (cfg : RedoConfig) (worker : ParallelPageRedoWorker) : ParallelPageRedoWorker → Prop
  | getN (num : ℕ) (hmode : worker.mode = .main) :
      Steps cfg worker { worker with
        redoQueue := worker.redoQueue.drop num
        fetched := worker.redoQueue.take num
        maxWalRecoveryPlsn := invalidPlsn
        mode := .loop
        batch := []
        redone := none
        pageId := invalidPageId
        prevFileVersion := invalidFileVersion }
  | noRecord (hmode : worker.mode = .main) (hqueue : worker.redoQueue = []) :
      Steps cfg worker (worker.updateMaxRedoPlsn worker.maxPlsnSyncer)
  | lastBatch (hmode : worker.mode = .loop) (hfetched : worker.fetched = []) :
      Steps cfg worker { worker with mode := .redo }
  | syncer {entry rest} (hmode : worker.mode = .loop) (hfetched : worker.fetched = entry :: rest)
      (hentry : entry.walRecord = none) :
      Steps cfg worker { worker with
        fetched := rest, maxPlsnSyncer := max worker.maxPlsnSyncer entry.recordEndPlsn }
  | barrier {entry rest} (hmode : worker.mode = .loop) (hfetched : worker.fetched = entry :: rest)
      (hentry : entry.isBarrier) :
      Steps cfg worker { worker with
        fetched := rest
        maxWalRecoveryPlsn :=
          max worker.maxWalRecoveryPlsn (entry.groupStartPlsn cfg.walFileSize) }
  | batchEnds {entry rest record} (hmode : worker.mode = .loop)
      (hfetched : worker.fetched = entry :: rest) (hrecord : entry.walRecord = some record)
      (hentry : entry.isRedo) : Steps cfg worker { worker with mode := .redo }
  | add {entry rest record}
      (hmode : worker.mode = .loop) (hfetched : worker.fetched = entry :: rest)
      (hrecord : entry.walRecord = some record) (hentry : entry.isRedo)
      (hbatch : worker.batchEnds record = false) :
      Steps cfg worker (worker.addWalRecord entry record rest)
  | redo {entry rest} (hmode : worker.mode = .redo) (hbatch : worker.batch = entry :: rest) :
      Steps cfg worker { worker with
        batch := rest
        redone := some entry.recordEndPlsn
        applied := worker.applied ++ [entry] }
  | finishTurn (hmode : worker.mode = .redo) (hbatch : worker.batch = [])
      (hfetched : worker.fetched = []) : Steps cfg worker { worker.marked with mode := .main }
  | finishBatch {entry rest record} (hmode : worker.mode = .redo) (hbatch : worker.batch = [])
      (hfetched : worker.fetched = entry :: rest) (hrecord : entry.walRecord = some record) :
      Steps cfg worker (worker.marked.addWalRecord entry record rest)

lemma steps_of_step {cfg : RedoConfig} {action : WorkerAction}
    {worker worker' : ParallelPageRedoWorker} (hstep : worker.step cfg action = some worker') :
    Steps cfg worker worker' := by
  cases action with
  | getN num =>
    simp only [step, getN, ite_none_right_eq_some, some.injEq] at hstep
    obtain ⟨⟨hmode, -⟩, rfl⟩ := hstep
    exact .getN num hmode
  | noRecord =>
    simp only [step, noRecord, ite_none_right_eq_some, some.injEq] at hstep
    obtain ⟨⟨hmode, hqueue⟩, rfl⟩ := hstep
    exact .noRecord hmode hqueue
  | take =>
    simp only [step, take, ne_eq, ite_not, ite_none_right_eq_some] at hstep
    obtain ⟨hmode, hstep⟩ := hstep
    split at hstep
    · cases hstep
      exact .lastBatch hmode (by assumption)
    · rename_i entry rest hfetched
      split at hstep
      · cases hstep
        exact .syncer hmode hfetched (by assumption)
      · rename_i record hrecord
        split_ifs at hstep with htype hends <;> cases hstep
        · exact .barrier hmode hfetched (by simp [isBarrier, hrecord, htype])
        · exact .batchEnds hmode hfetched hrecord
            (by simp [isRedo, hrecord, htype])
        · exact .add hmode hfetched hrecord
            (by simp [isRedo, hrecord, htype]) (by simpa using hends)
  | redo =>
    simp only [step, redo, ne_eq, ite_not, ite_none_right_eq_some] at hstep
    obtain ⟨hmode, hstep⟩ := hstep
    split at hstep
    · cases hstep
    · cases hstep
      exact .redo hmode (by assumption)
  | finish =>
    simp only [step, finish] at hstep
    split at hstep
    · cases hstep
    · rename_i hguard
      obtain ⟨hmode, hbatch⟩ : worker.mode = .redo ∧ worker.batch = [] := by
        simpa [not_or] using hguard
      split at hstep
      · cases hstep
        exact .finishTurn hmode hbatch (by assumption)
      · split at hstep
        · cases hstep
        · cases hstep
          exact .finishBatch hmode hbatch (by assumption) (by assumption)
  | add => cases hstep
  | scan tbsId => cases hstep

end ParallelPageRedoWorker

/-! ## The DDL worker -/

/-- A waiting list of the DDL worker, without the entries that are redone. -/
structure WalBatchRecoveryPara where
  recordEntry : List RedoWalRecordEntry
  entryCapacity : ℕ
  waitStartPlsn : ℕ
deriving DecidableEq, Repr

/-- What follows a `RedoBatch` of the DDL worker: the entry for which it was run is added, the turn
ends, or the next waiting list is tried. -/
inductive AfterBatchProc where
  | add (entry : RedoWalRecordEntry)
  | fetchDone
  | scan
deriving DecidableEq, Repr

/-- Where the DDL worker stands: at the top of `WorkerMain`, in the loop over the fetched entries,
before `AddWalRecord`, or in `RedoBatch` of the list of a tablespace, with the end plsn of the last
entry redone. -/
inductive DDLRedoMode where
  | main
  | loop
  | adding (entry : RedoWalRecordEntry)
  | redo (tbsId : ℕ) (redone : Option ℕ) (next : AfterBatchProc)
deriving DecidableEq, Repr

/-- `ParallelDDLRedoWorker` with the local variables of its loop. -/
structure ParallelDDLRedoWorker extends ParallelRedoWorker where
  mode : DDLRedoMode
  tbsRedoWaitingList : ℕ → Option WalBatchRecoveryPara
  curTbsId : ℕ
  lastTbsId : ℕ

namespace ParallelDDLRedoWorker

variable (cfg : RedoConfig) (worker : ParallelDDLRedoWorker)

/-- A DDL worker that was just created. -/
def init : ParallelDDLRedoWorker :=
  ⟨ParallelRedoWorker.init, .main, fun _ => none, invalidTablespaceId, invalidTablespaceId⟩

/-- The loop over the waiting lists in `ParallelDDLRedoWorker::UpdateMaxRedoPlsn`. -/
def clampToWaiting (plsn : ℕ) : ℕ :=
  (List.range (maxTablespaceId + 1)).foldl
    (fun plsn tbsId =>
      match worker.tbsRedoWaitingList tbsId with
      | none => plsn
      | some para => min plsn para.waitStartPlsn) plsn

/-- `ParallelDDLRedoWorker::UpdateMaxRedoPlsn`. -/
def updateMaxRedoPlsn (plsn : ℕ) : ParallelDDLRedoWorker :=
  if plsn > worker.maxRedoPlsn then
    { worker with maxRedoPlsn := max worker.maxRedoPlsn (worker.clampToWaiting plsn) }
  else worker

/-- `ParallelRedoWorker::UpdateMaxRecoveryPlsn`. -/
def updateMaxRecoveryPlsn (plsn : ℕ) : ParallelDDLRedoWorker :=
  { worker with maxRecoveryPlsn := max worker.maxRecoveryPlsn plsn }

/-- One waiting list is replaced. -/
def setWaitingList (tbsId : ℕ) (para : Option WalBatchRecoveryPara) : ParallelDDLRedoWorker :=
  { worker with tbsRedoWaitingList := Function.update worker.tbsRedoWaitingList tbsId para }

/-- `GetN` and the start of `ProcAllGetRedoWalRecordEntrys`. -/
def getN (num : ℕ) (worker : ParallelDDLRedoWorker) : Option ParallelDDLRedoWorker :=
  if worker.mode = .main ∧ 0 < num ∧ num ≤ maxRedoQueBatchNum ∧ num ≤ worker.redoQueue.length then
    some { worker with
      redoQueue := worker.redoQueue.drop num
      fetched := worker.redoQueue.take num
      maxWalRecoveryPlsn := invalidPlsn
      mode := .loop
      curTbsId := invalidTablespaceId
      lastTbsId := invalidTablespaceId }
  else none

/-- Entries wait in the list of a tablespace. -/
def waits (tbsId : ℕ) : Bool :=
  (worker.tbsRedoWaitingList tbsId).any (·.recordEntry ≠ [])

/-- `ParallelDDLRedoWorker::ProcNoRedoWalRecordComing` when nothing waits. -/
def noRecord : Option ParallelDDLRedoWorker :=
  if worker.mode = .main ∧ worker.redoQueue = [] ∧
      (List.range (maxTablespaceId + 1)).all (!worker.waits ·) then
    some (worker.updateMaxRedoPlsn worker.maxPlsnSyncer)
  else none

/-- `ParallelDDLRedoWorker::ProcNoRedoWalRecordComing` for a list in which entries wait. -/
def scan (tbsId : ℕ) (worker : ParallelDDLRedoWorker) : Option ParallelDDLRedoWorker :=
  if worker.mode = .main ∧ worker.redoQueue = [] ∧ worker.waits tbsId then
    some { worker with mode := .redo tbsId none .scan }
  else none

/-- The list of a tablespace, allocated if there is none. -/
def waitingListFor (tbsId : ℕ) : WalBatchRecoveryPara :=
  (worker.tbsRedoWaitingList tbsId).getD ⟨[], maxBatchRecordNum, cfg.recoveryStartPlsn⟩

/-- The loop has reached a record of a tablespace, whose list is allocated. -/
def openList (tbsId : ℕ) (rest : List RedoWalRecordEntry) : ParallelDDLRedoWorker :=
  { worker.setWaitingList tbsId (some (worker.waitingListFor cfg tbsId)) with
    fetched := rest
    curTbsId := tbsId }

/-- `BatchProc` of `m_systableRedo`: its one record is replayable at any time. -/
def relmap (entry : RedoWalRecordEntry) (rest : List RedoWalRecordEntry) : ParallelDDLRedoWorker :=
  ({ worker with fetched := rest, applied := worker.applied ++ [entry] }.updateMaxRedoPlsn
    entry.recordEndPlsn).updateMaxRecoveryPlsn worker.maxWalRecoveryPlsn

/-- The list of the last tablespace is redone before a record of another tablespace, or when it is
full. -/
def lastListEnds (tbsId : ℕ) : Bool :=
  (worker.tbsRedoWaitingList worker.lastTbsId).any fun para =>
    tbsId ≠ worker.lastTbsId || para.entryCapacity - 1 ≤ para.recordEntry.length

/-- One turn of the loop in `ParallelDDLRedoWorker::ProcAllGetRedoWalRecordEntrys`, up to the call
of `BatchProc` for the last tablespace. -/
def take : Option ParallelDDLRedoWorker :=
  if worker.mode ≠ .loop then none
  else
    match worker.fetched with
    | [] =>
      -- `BatchProc` returns at once when there is no list
      if worker.tbsRedoWaitingList worker.curTbsId = none then some { worker with mode := .main }
      else some { worker with mode := .redo worker.curTbsId none .fetchDone }
    | entry :: rest =>
      match entry.walRecord with
      | none =>
        some { worker with
          fetched := rest
          maxPlsnSyncer := max worker.maxPlsnSyncer entry.recordEndPlsn }
      | some record =>
        if record.type = .barrierCsn then
          some { worker with
            fetched := rest
            maxWalRecoveryPlsn :=
              max worker.maxWalRecoveryPlsn (entry.groupStartPlsn cfg.walFileSize) }
        else if record.type = .systableWriteBuiltinRelmap then some (worker.relmap entry rest)
        else if maxTablespaceId < record.tablespaceId then none
        else
          let opened := worker.openList cfg record.tablespaceId rest
          if opened.lastListEnds record.tablespaceId then
            some { opened with mode := .redo worker.lastTbsId none (.add entry) }
          else some { opened with mode := .adding entry }

/-- The redo of one entry in `RedoBatchForDdl`. -/
def redo : Option ParallelDDLRedoWorker :=
  match worker.mode with
  | .redo tbsId _ next =>
    match worker.tbsRedoWaitingList tbsId with
    | some ⟨entry :: rest, capacity, _⟩ =>
      some { worker.setWaitingList tbsId (some ⟨rest, capacity, entry.recordEndPlsn⟩) with
        mode := .redo tbsId (some entry.recordEndPlsn) next
        applied := worker.applied ++ [entry] }
    | _ => none
  | _ => none

/-- The mode after a `RedoBatch`. -/
def nextMode : AfterBatchProc → DDLRedoMode
  | .add entry => .adding entry
  | .fetchDone | .scan => .main

/-- After a `RedoBatch` that redid an entry: `UpdateMaxRedoPlsn`, in `BatchProc` also
`UpdateMaxRecoveryPlsn`, and `ClearBatchRecoveryPara`. -/
def marked (tbsId plsn : ℕ) (next : AfterBatchProc)
    (left : List RedoWalRecordEntry) : ParallelDDLRedoWorker :=
  let worker := worker.updateMaxRedoPlsn plsn
  let worker :=
    if next = .scan then worker else worker.updateMaxRecoveryPlsn worker.maxWalRecoveryPlsn
  if left = [] then worker.setWaitingList tbsId none else worker

/-- The end of a `RedoBatch`: at an entry that is not replayable yet, unless it waits for it, as on
a standby. -/
def finish : Option ParallelDDLRedoWorker :=
  match worker.mode with
  | .redo tbsId redone next =>
    match worker.tbsRedoWaitingList tbsId with
    | none => none
    | some para =>
      if cfg.standbyRedo ∧ para.recordEntry ≠ [] then none
      else
        match redone with
        | none => some { worker with mode := nextMode next }
        | some plsn =>
          some { worker.marked tbsId plsn next para.recordEntry with mode := nextMode next }
  | _ => none

/-- `AddWalRecord` to the list of the current tablespace, which grows if it is full. If `BatchProc`
has just freed that list, the source dereferences a null pointer: there is no step. -/
def add : Option ParallelDDLRedoWorker :=
  match worker.mode with
  | .adding entry =>
    match worker.tbsRedoWaitingList worker.curTbsId with
    | none => none
    | some para =>
      let capacity :=
        if para.recordEntry.length = para.entryCapacity then para.entryCapacity + maxBatchRecordNum
        else para.entryCapacity
      some { worker.setWaitingList worker.curTbsId
          (some ⟨para.recordEntry ++ [entry], capacity, para.waitStartPlsn⟩) with
        mode := .loop
        lastTbsId := worker.curTbsId }
  | _ => none

/-- One step of the DDL worker. -/
def step (cfg : RedoConfig) (action : WorkerAction) (worker : ParallelDDLRedoWorker) :
    Option ParallelDDLRedoWorker :=
  match action with
  | .getN num => worker.getN num
  | .noRecord => worker.noRecord
  | .take => worker.take cfg
  | .redo => worker.redo
  | .finish => worker.finish cfg
  | .add => worker.add
  | .scan tbsId => worker.scan tbsId

/-- What a step of the DDL worker can do. -/
inductive Steps (cfg : RedoConfig) (worker : ParallelDDLRedoWorker) :
    WorkerAction → ParallelDDLRedoWorker → Prop
  | getN (num : ℕ) (hmode : worker.mode = .main) :
      Steps cfg worker (.getN num) { worker with
        redoQueue := worker.redoQueue.drop num
        fetched := worker.redoQueue.take num
        maxWalRecoveryPlsn := invalidPlsn
        mode := .loop
        curTbsId := invalidTablespaceId
        lastTbsId := invalidTablespaceId }
  | noRecord (hmode : worker.mode = .main) (hqueue : worker.redoQueue = [])
      (hwaits : ∀ tbsId ≤ maxTablespaceId, worker.waits tbsId = false) :
      Steps cfg worker .noRecord (worker.updateMaxRedoPlsn worker.maxPlsnSyncer)
  | scan (tbsId : ℕ) (hmode : worker.mode = .main) (hqueue : worker.redoQueue = [])
      (hwaits : worker.waits tbsId) :
      Steps cfg worker (.scan tbsId) { worker with mode := .redo tbsId none .scan }
  | noList (hmode : worker.mode = .loop) (hfetched : worker.fetched = [])
      (hlist : worker.tbsRedoWaitingList worker.curTbsId = none) :
      Steps cfg worker .take { worker with mode := .main }
  | lastBatch (hmode : worker.mode = .loop) (hfetched : worker.fetched = [])
      (hlist : worker.tbsRedoWaitingList worker.curTbsId ≠ none) :
      Steps cfg worker .take { worker with mode := .redo worker.curTbsId none .fetchDone }
  | syncer {entry rest} (hmode : worker.mode = .loop) (hfetched : worker.fetched = entry :: rest)
      (hentry : entry.walRecord = none) :
      Steps cfg worker .take { worker with
        fetched := rest, maxPlsnSyncer := max worker.maxPlsnSyncer entry.recordEndPlsn }
  | barrier {entry rest} (hmode : worker.mode = .loop) (hfetched : worker.fetched = entry :: rest)
      (hentry : entry.isBarrier) :
      Steps cfg worker .take { worker with
        fetched := rest
        maxWalRecoveryPlsn :=
          max worker.maxWalRecoveryPlsn (entry.groupStartPlsn cfg.walFileSize) }
  | relmap {entry rest} (hmode : worker.mode = .loop) (hfetched : worker.fetched = entry :: rest)
      (hentry : entry.isRelmap) : Steps cfg worker .take (worker.relmap entry rest)
  | batchEnds {entry rest record} (hmode : worker.mode = .loop)
      (hfetched : worker.fetched = entry :: rest) (hrecord : entry.walRecord = some record)
      (hentry : entry.isTablespace) (htbs : record.tablespaceId ≤ maxTablespaceId)
      (hends : (worker.openList cfg record.tablespaceId rest).lastListEnds
        record.tablespaceId) :
      Steps cfg worker .take { worker.openList cfg record.tablespaceId rest with
        mode := .redo worker.lastTbsId none (.add entry) }
  | noBatch {entry rest record} (hmode : worker.mode = .loop)
      (hfetched : worker.fetched = entry :: rest) (hrecord : entry.walRecord = some record)
      (hentry : entry.isTablespace) (htbs : record.tablespaceId ≤ maxTablespaceId)
      (hends : (worker.openList cfg record.tablespaceId rest).lastListEnds
        record.tablespaceId = false) :
      Steps cfg worker .take { worker.openList cfg record.tablespaceId rest with
        mode := .adding entry }
  | redo {entry rest} {tbsId : ℕ}
      {redone : Option ℕ} {next : AfterBatchProc} {capacity waitStartPlsn : ℕ}
      (hmode : worker.mode = .redo tbsId redone next)
      (hlist : worker.tbsRedoWaitingList tbsId = some ⟨entry :: rest, capacity, waitStartPlsn⟩) :
      Steps cfg worker .redo
        { worker.setWaitingList tbsId (some ⟨rest, capacity, entry.recordEndPlsn⟩) with
          mode := .redo tbsId (some entry.recordEndPlsn) next
          applied := worker.applied ++ [entry] }
  | finishNone {tbsId : ℕ} {next : AfterBatchProc} {para : WalBatchRecoveryPara}
      (hmode : worker.mode = .redo tbsId none next)
      (hlist : worker.tbsRedoWaitingList tbsId = some para)
      (hleft : cfg.standbyRedo → para.recordEntry = []) :
      Steps cfg worker .finish { worker with mode := nextMode next }
  | finishSome {tbsId plsn : ℕ} {next : AfterBatchProc} {para : WalBatchRecoveryPara}
      (hmode : worker.mode = .redo tbsId (some plsn) next)
      (hlist : worker.tbsRedoWaitingList tbsId = some para)
      (hleft : cfg.standbyRedo → para.recordEntry = []) :
      Steps cfg worker .finish
        { worker.marked tbsId plsn next para.recordEntry with mode := nextMode next }
  | add {entry : RedoWalRecordEntry} {para : WalBatchRecoveryPara} (capacity : ℕ)
      (hmode : worker.mode = .adding entry)
      (hlist : worker.tbsRedoWaitingList worker.curTbsId = some para) :
      Steps cfg worker .add { worker.setWaitingList worker.curTbsId
          (some ⟨para.recordEntry ++ [entry], capacity, para.waitStartPlsn⟩) with
        mode := .loop
        lastTbsId := worker.curTbsId }

lemma steps_of_take {cfg : RedoConfig} {worker worker' : ParallelDDLRedoWorker}
    (hstep : worker.take cfg = some worker') : Steps cfg worker .take worker' := by
  simp only [take, ne_eq, ite_not, ite_none_right_eq_some] at hstep
  obtain ⟨hmode, hstep⟩ := hstep
  split at hstep
  · split_ifs at hstep with hlist <;> cases hstep
    · exact .noList hmode (by assumption) hlist
    · exact .lastBatch hmode (by assumption) hlist
  · rename_i entry rest hfetched
    split at hstep
    · cases hstep
      exact .syncer hmode hfetched (by assumption)
    · rename_i record hrecord
      split_ifs at hstep with htype hrelmap htbs hends <;> cases hstep
      · exact .barrier hmode hfetched (by simp [isBarrier, hrecord, htype])
      · exact .relmap hmode hfetched (by simp [isRelmap, hrecord, hrelmap])
      · exact .batchEnds hmode hfetched hrecord
          (isTablespace_of_type hrecord htype hrelmap) (not_lt.1 htbs) hends
      · exact .noBatch hmode hfetched hrecord
          (isTablespace_of_type hrecord htype hrelmap) (not_lt.1 htbs)
          (by simpa using hends)

lemma steps_of_step {cfg : RedoConfig} {action : WorkerAction}
    {worker worker' : ParallelDDLRedoWorker} (hstep : worker.step cfg action = some worker') :
    Steps cfg worker action worker' := by
  cases action with
  | getN num =>
    simp only [step, getN, ite_none_right_eq_some, some.injEq] at hstep
    obtain ⟨⟨hmode, -⟩, rfl⟩ := hstep
    exact .getN num hmode
  | noRecord =>
    simp only [step, noRecord, ite_none_right_eq_some, some.injEq] at hstep
    obtain ⟨⟨hmode, hqueue, hwaits⟩, rfl⟩ := hstep
    refine .noRecord hmode hqueue fun tbsId hle => ?_
    simpa using List.all_eq_true.1 hwaits tbsId (List.mem_range.2 (Nat.lt_add_one_of_le hle))
  | take => exact steps_of_take hstep
  | redo =>
    simp only [step, redo] at hstep
    split at hstep
    · split at hstep
      · cases hstep
        exact .redo (by assumption) (by assumption)
      · cases hstep
    · cases hstep
  | finish =>
    simp only [step, finish] at hstep
    split at hstep
    · rename_i tbsId redone next hmode
      split at hstep
      · cases hstep
      · rename_i para hlist
        split at hstep
        · cases hstep
        · rename_i hguard
          have hleft : cfg.standbyRedo → para.recordEntry = [] := by
            simpa [not_and, Classical.not_not] using hguard
          split at hstep <;> cases hstep
          · exact .finishNone hmode hlist hleft
          · exact .finishSome hmode hlist hleft
    · cases hstep
  | add =>
    simp only [step, add] at hstep
    split at hstep
    · split at hstep
      · cases hstep
      · cases hstep
        exact .add _ (by assumption) (by assumption)
    · cases hstep
  | scan tbsId =>
    simp only [step, scan, ite_none_right_eq_some, some.injEq] at hstep
    obtain ⟨⟨hmode, hqueue, hwaits⟩, rfl⟩ := hstep
    exact .scan tbsId hmode hqueue hwaits

end ParallelDDLRedoWorker

end DStore
