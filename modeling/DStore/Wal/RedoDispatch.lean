import Mathlib.Data.List.Range
import DStore.Wal.PageHeader
import DStore.Wal.Plsn

/-!
# Dispatching log records to redo workers

The dispatcher takes the records of a log stream in log order and hands each to the worker that
redoes it: tablespace records to the DDL worker, page records to a page worker picked by the page
id, and a record that initialises many pages as one entry for each of them. It gathers the entries
of a worker in a batch before it appends them to the worker's queue, and notes for each worker the
end plsn of the last entry it handed out.
-/

namespace DStore

open List

variable {entry : RedoWalRecordEntry}

/-- `MAX_REDO_QUE_BATCH_NUM`. -/
def maxRedoQueBatchNum : ℕ := 100

/-- `DDL_REDO_WORKER_NUM`. -/
def ddlRedoWorkerNum : ℕ := 1

/-- What the dispatcher and the redo workers read of a log record: `pageId` is the page of a page
record and the first page of a record that initialises `pageCount` pages. -/
structure RedoWalRecord where
  type : WalType
  size : ℕ
  pageId : PageId
  filePreVersion : UInt64
  pageCount : ℕ
  tablespaceId : ℕ
deriving DecidableEq, Repr

/-- `RedoWalRecordEntry`: without a record it is a plsn syncer. -/
structure RedoWalRecordEntry where
  recordEndPlsn : ℕ
  walRecord : Option RedoWalRecord
deriving DecidableEq, Repr

namespace RedoWalRecordEntry

/-- The entry is a barrier record. -/
def isBarrier (entry : RedoWalRecordEntry) : Bool :=
  entry.walRecord.any (·.type = .barrierCsn)

/-- The entry is a record that changes pages or control data. -/
def isRedo (entry : RedoWalRecordEntry) : Bool :=
  entry.walRecord.any (·.type ≠ .barrierCsn)

/-- The entry is a change of the map of built-in relations. -/
def isRelmap (entry : RedoWalRecordEntry) : Bool :=
  entry.walRecord.any (·.type = .systableWriteBuiltinRelmap)

/-- The entry is neither: at the DDL worker, a record of a tablespace. -/
def isTablespace (entry : RedoWalRecordEntry) : Bool :=
  entry.isRedo && !entry.isRelmap

/-- `WalUtils::GetWalGroupStartPlsn` of a barrier entry, the only record of its group. -/
def groupStartPlsn (walFileSize : ℕ) (entry : RedoWalRecordEntry) : ℕ :=
  match entry.walRecord with
  | none => invalidPlsn
  | some record => getWalGroupStartPlsn entry.recordEndPlsn record.size walFileSize

lemma isRedo_eq_false_of_isBarrier (h : entry.isBarrier) : entry.isRedo = false := by
  rcases entry with ⟨plsn, _ | record⟩
  · rfl
  · simpa [isBarrier, isRedo] using h

lemma isRedo_of_isRelmap (h : entry.isRelmap) : entry.isRedo := by
  rcases entry with ⟨plsn, _ | record⟩
  · cases h
  · simp_all [isRelmap, isRedo]

/-- A record that is neither barrier nor relmap record is one of a tablespace. -/
lemma isTablespace_of_type {record : RedoWalRecord}
    (hrecord : entry.walRecord = some record) (hbarrier : record.type ≠ .barrierCsn)
    (hrelmap : record.type ≠ .systableWriteBuiltinRelmap) : entry.isTablespace := by
  simp [isTablespace, isRedo, isRelmap, hrecord, hbarrier, hrelmap]

end RedoWalRecordEntry

open RedoWalRecordEntry

/-- What the recovery of one log stream is run with; `tagHash` stands for the hash of a page id. -/
structure RedoConfig where
  redoWorkerNum : ℕ
  walFileSize : ℕ
  recoveryStartPlsn : ℕ
  standby : Bool
  standbyRedo : Bool
  tagHash : PageId → ℕ

/-- `GetDispatchPageRedoWorkerId`. -/
def RedoConfig.getDispatchPageRedoWorkerId (cfg : RedoConfig) (pageId : PageId) : ℕ :=
  cfg.tagHash pageId % (cfg.redoWorkerNum - ddlRedoWorkerNum) + ddlRedoWorkerNum

/-- `GetDispatchDDLRedoWorkerId`: there is one DDL worker. -/
def getDispatchDDLRedoWorkerId : ℕ := 0

/-- The type and size of the records that a record of many pages is split into. -/
def splitTypeAndSize (type : WalType) : WalType × ℕ :=
  if type = .tbsInitMultipleDataPages then (.tbsInitOneDataPage, walRecordForPageSize + 9)
  else (.tbsInitOneBitmapPage, walRecordForPageSize + 7)

/-- The record for the `i`-th page of a record of many pages. -/
def splitRecord (record : RedoWalRecord) (i : ℕ) : RedoWalRecord where
  type := (splitTypeAndSize record.type).1
  size := (splitTypeAndSize record.type).2
  pageId := ⟨record.pageId.fileId, record.pageId.blockId + UInt32.ofNat i⟩
  filePreVersion := record.filePreVersion
  pageCount := 1
  tablespaceId := record.tablespaceId

/-- An entry for the batch of a worker. The batch is appended to the worker's queue when it is full,
or at once. -/
structure DispatchTarget where
  workerId : ℕ
  entry : RedoWalRecordEntry
  appendNow : Bool
deriving DecidableEq, Repr

namespace RedoConfig

variable (cfg : RedoConfig)

/-- `SplitAndDispatchInitMultipleDataPageWalRecord` and
`SplitAndDispatchInitBitmapPagesWalRecord`. -/
def splitAndDispatch (endPlsn : ℕ) (record : RedoWalRecord) : List DispatchTarget :=
  (List.range record.pageCount).map fun i =>
    ⟨cfg.getDispatchPageRedoWorkerId (splitRecord record i).pageId,
      ⟨endPlsn, some (splitRecord record i)⟩, false⟩

/-- `DispatchPlsnSyncerToAllWorkers` and `DispatchBarrierToPageRedoWorkers`. -/
def dispatchToAllWorkers (entry : RedoWalRecordEntry) : List DispatchTarget :=
  (List.range cfg.redoWorkerNum).map fun workerId => ⟨workerId, entry, false⟩

/-- `WalRecovery::DispatchWalRecord`. -/
def dispatchWalRecord (endPlsn : ℕ) (record : RedoWalRecord) : List DispatchTarget :=
  if record.type.isRedoableWalRecord = false then []
  else if record.type = .tbsInitMultipleDataPages then cfg.splitAndDispatch endPlsn record
  else if record.type = .tbsInitBitmapPages then cfg.splitAndDispatch endPlsn record
  else if record.type.isWalRecordWithoutPageInfo then
    [⟨getDispatchDDLRedoWorkerId, ⟨endPlsn, some record⟩, true⟩]
  else [⟨cfg.getDispatchPageRedoWorkerId record.pageId, ⟨endPlsn, some record⟩, false⟩]

/-- One turn of the loop in `WalRecovery::DispatchWorkerMain`. -/
def dispatchEntry (entry : RedoWalRecordEntry) : List DispatchTarget :=
  match entry.walRecord with
  | none => cfg.dispatchToAllWorkers entry
  | some record =>
    if record.type = .barrierCsn then
      if cfg.standby then cfg.dispatchToAllWorkers entry else []
    else cfg.dispatchWalRecord entry.recordEndPlsn record

/-- The pages of a record of many pages go to different workers. -/
def PagesApart (entry : RedoWalRecordEntry) : Prop :=
  ∀ record, entry.walRecord = some record → record.type.isWalRecordWithMultiPagesInfo →
    ((List.range record.pageCount).map fun i =>
      cfg.getDispatchPageRedoWorkerId (splitRecord record i).pageId).Nodup

variable {target : DispatchTarget}

/-- All workers are handed the entry itself. -/
lemma dispatchToAllWorkers_entry
    (htarget : target ∈ cfg.dispatchToAllWorkers entry) : target.entry = entry := by
  obtain ⟨_, -, rfl⟩ := mem_map.1 htarget
  rfl

section

variable (htarget : target ∈ cfg.dispatchEntry entry)
include htarget

/-- An entry is handed out as it is, a record to redo to the worker of its kind or page, or it is
one to redo and is split into others, each for the worker of its page. -/
lemma dispatchEntry_spec : (target.entry = entry ∧ ∀ record, entry.walRecord = some record →
      record.type ≠ .barrierCsn → target.workerId = if record.type.isWalRecordWithoutPageInfo
        then getDispatchDDLRedoWorkerId else cfg.getDispatchPageRedoWorkerId record.pageId) ∨
    entry.isRedo ∧ ∃ record i, target.entry = ⟨entry.recordEndPlsn, some (splitRecord record i)⟩ ∧
      target.workerId = cfg.getDispatchPageRedoWorkerId (splitRecord record i).pageId := by
  unfold dispatchEntry dispatchWalRecord at htarget
  split at htarget
  · rename_i hnone
    exact .inl ⟨cfg.dispatchToAllWorkers_entry htarget, by simp [hnone]⟩
  · rename_i record hrecord
    have hself : ⟨entry.recordEndPlsn, some record⟩ = entry := by rw [← hrecord]
    have hredo : record.type ≠ .barrierCsn → entry.isRedo := by simp [isRedo, hrecord]
    split_ifs at htarget with hbarrier hstandby hredoable hdata hbitmap hddl
    · exact .inl ⟨cfg.dispatchToAllWorkers_entry htarget, by simp [hrecord, hbarrier]⟩
    · cases htarget
    · cases htarget
    · obtain ⟨i, -, rfl⟩ := mem_map.1 htarget
      exact .inr ⟨hredo hbarrier, record, i, rfl, rfl⟩
    · obtain ⟨i, -, rfl⟩ := mem_map.1 htarget
      exact .inr ⟨hredo hbarrier, record, i, rfl, rfl⟩
    · rw [mem_singleton.1 htarget]
      exact .inl ⟨hself, by simp [hrecord, hddl]⟩
    · rw [mem_singleton.1 htarget]
      exact .inl ⟨hself, by simp [hrecord, hddl]⟩

/-- The parts of a record keep its plsn. -/
lemma dispatchEntry_plsn : target.entry.recordEndPlsn = entry.recordEndPlsn := by
  rcases cfg.dispatchEntry_spec htarget with ⟨heq, -⟩ | ⟨-, record, i, heq, -⟩
  · rw [heq]
  · rw [heq]

/-- What has to be redone is handed out as such. -/
lemma dispatchEntry_isRedo (hentry : entry.isRedo) : target.entry.isRedo := by
  rcases cfg.dispatchEntry_spec htarget with ⟨heq, -⟩ | ⟨-, record, i, heq, -⟩
  · rwa [heq]
  · rw [heq]
    simp only [isRedo, splitRecord, splitTypeAndSize, Option.any_some]
    split <;> rfl

/-- Entries that need no redo are handed out as they are. -/
lemma dispatchEntry_eq_of_not_isRedo (hentry : entry.isRedo = false) : target.entry = entry := by
  rcases cfg.dispatchEntry_spec htarget with ⟨heq, -⟩ | ⟨hredo, -⟩
  · exact heq
  · simp [hentry] at hredo

end

/-- No worker is handed two parts of one record. -/
lemma dispatchEntry_nodup (hapart : cfg.PagesApart entry) :
    ((cfg.dispatchEntry entry).map (·.workerId)).Nodup := by
  have hall : ((cfg.dispatchToAllWorkers entry).map (·.workerId)).Nodup := by
    simpa [dispatchToAllWorkers, map_map, Function.comp_def] using
      nodup_range (n := cfg.redoWorkerNum)
  unfold dispatchEntry
  split
  · exact hall
  · rename_i record hrecord
    have hsplit : record.type.isWalRecordWithMultiPagesInfo →
        ((cfg.splitAndDispatch entry.recordEndPlsn record).map (·.workerId)).Nodup := by
      intro hmulti
      simpa [splitAndDispatch, map_map, Function.comp_def] using hapart record hrecord hmulti
    unfold dispatchWalRecord
    split_ifs with hbarrier hstandby hredo hdata hbitmap hddl
    · exact hall
    · exact nodup_nil
    · exact nodup_nil
    · exact hsplit (by rw [hdata]; rfl)
    · exact hsplit (by rw [hbitmap]; rfl)
    · simp
    · simp

end RedoConfig

end DStore
