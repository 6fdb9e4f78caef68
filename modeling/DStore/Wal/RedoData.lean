import DStore.Wal.RedoWorker
import DStore.Wal.ReplayGate

/-!
# What redo changes, and the redo of single records

Redo changes pages, data files, the items of files and tablespaces in the control file, and the map
of built-in relations. A record for a file or its pages carries the version of the file at the time
it was made, a record for a tablespace that of the tablespace: it is skipped when the version has
moved on, and has to wait until the version is reached. `none` stands for a record that waits, and
for one that stops the server.

The contents of pages and of the map are left open, as are the functions that redo a record on the
contents of a page.
-/

namespace DStore

open Function

/-- `MAX_TBS_DATAFILE_SLOT_CNT`. -/
def maxTbsDatafileSlotCnt : ℕ := 1024

/-- `INIT_FILE_SIZE` in blocks. -/
def initBlockCount : ℕ := 16384

/-- `DF_BITMAP_BIT_CNT`. -/
def dfBitmapBitCnt : ℕ := 64512

/-- `INVALID_DATA_FILE_ID`. -/
def invalidDataFileId : UInt16 := 0

/-- `PageType`, as a log record names it. -/
inductive WalPageType where
  | invalidPageType | heapPageType | indexPageType | transactionSlotPage | undoPageType
  | fsmPageType | fsmMetaPageType | dataSegmentMetaPageType | heapSegmentMetaPageType
  | undoSegmentMetaPageType | tbsExtentMetaPageType | tbsBitmapPageType | tbsBitmapMetaPageType
  | tbsFileMetaPageType | btrQueuePageType | btrRecyclePartitionMetaPageType
  | btrRecycleRootMetaPageType | tbsSpaceMetaPageType
deriving DecidableEq, Repr

/-- `FsmIndex`. -/
structure FsmIndex where
  page : PageId
  slot : UInt16
deriving DecidableEq, Repr

/-- `ControlDataFilePageItemData`. -/
structure ControlDataFileItem where
  used : Bool
  reuseVersion : ℕ
  fileMaxSize : ℕ
  extentSize : ℕ
  ddlXid : Xid
  tablespaceId : ℕ
deriving DecidableEq, Repr

/-- `ControlTablespacePageItemData`. -/
structure ControlTablespaceItem where
  used : Bool
  reuseVersion : ℕ
  tbsMaxSize : ℕ
  ddlXid : Xid
  hwm : ℕ
  fileIds : ℕ → UInt16

/-- A page: the position in its header, and the rest. -/
structure RedoPage (Body : Type) where
  lsn : WalRecordLsnInfo
  body : Body
deriving DecidableEq

/-- A data file: its item in the control file, its size if it is there, and its pages. -/
structure RedoFile (Body : Type) where
  item : ControlDataFileItem
  blocks : Option ℕ
  page : UInt32 → RedoPage Body

/-- What redo changes. -/
structure RedoData (Body Relmap : Type) where
  file : UInt16 → RedoFile Body
  tablespace : ℕ → ControlTablespaceItem
  relmap : Relmap

/-- The rest of a record. A record of many pages has `preWalPointer`, and its other fields are those
for the first page. `headerFileId` and `headerFilePreVersion` are what stands in place of these
fields of `WalRecordForPage` in a record that is none. -/
structure RedoWalRecordBody where
  pagePre : WalRecordLsnInfo
  headerFileId : UInt16
  headerFilePreVersion : ℕ
  totalBlockCount : ℕ
  pageType : WalPageType
  fsmIndex : FsmIndex
  dataPageId : PageId
  preWalPointer : ℕ → WalRecordLsnInfo
  fileId : UInt16
  preReuseVersion : ℕ
  ddlXid : Xid
  tbsMaxSize : ℕ
  fileMaxSize : ℕ
  extentSize : ℕ
  slotId : ℕ
  hwm : ℕ

/-- The stream that is redone, the rest of its records, and the redo of contents: `InitHeapPage` or
`InitBtrPage`, `InitBitmapPage`, the other cases of `RedoWalRecordByType`, and
`RedoSystableRecord`. -/
structure RedoEnv (Body Relmap : Type) where
  walId : WalId
  recordBody : RedoWalRecordEntry → RedoWalRecordBody
  zeroPage : RedoPage Body
  initDataPage : WalPageType → PageId → FsmIndex → Body → Body
  initBitmapPage : PageId → PageId → Body → Body
  redoPageRecord : RedoWalRecordEntry → RedoPage Body → RedoPage Body
  redoSystableRecord : RedoWalRecordEntry → Relmap → Relmap

variable {Body Relmap : Type}

/-- `RecoveryRead` finds the page. -/
def RedoFile.readable (file : RedoFile Body) (blockId : UInt32) : Bool :=
  file.blocks.any (blockId.toNat < ·)

/-- `WalRecordCheckFileVersion` and `WalRecordCheckTbsVersion`. -/
def walRecordCheckVersion (versionInFile recordVersionInfo : ℕ) : WalRecordReplayType :=
  if versionInFile > recordVersionInfo then .noNeedToReplay
  else if versionInFile < recordVersionInfo then .notReplayable
  else .replayable

namespace RedoEnv

variable (env : RedoEnv Body Relmap) (entry : RedoWalRecordEntry) (record : RedoWalRecord)

/-- The page header decides whether a record is to be redone. -/
def gate (recordEndPlsn : ℕ) (pagePre : WalRecordLsnInfo) (page : RedoPage Body) :
    WalRecordReplayType :=
  getWalRecordReplayType page.lsn pagePre (redoLsn pagePre env.walId recordEndPlsn)

/-! ## Page records -/

/-- `RedoWalRecordByType`. -/
def redoWalRecordByType (page : RedoPage Body) : RedoPage Body :=
  let body := env.recordBody entry
  let lsn := redoLsn body.pagePre env.walId entry.recordEndPlsn
  match record.type with
  | .tbsInitOneDataPage =>
    ⟨lsn, env.initDataPage body.pageType record.pageId body.fsmIndex page.body⟩
  | .tbsInitOneBitmapPage => ⟨lsn, env.initBitmapPage record.pageId body.dataPageId page.body⟩
  | _ => env.redoPageRecord entry page

/-- `WalRecordTbsExtendFile::Redo` also makes the file larger. -/
def extendFile (blocks : Option ℕ) : Option ℕ :=
  if record.type = .tbsExtendFile then
    blocks.map (max (env.recordBody entry).totalBlockCount)
  else blocks

/-- The checks for one page record, of the file version and of the page header, in `RedoSingle` or
`RedoBatchForPage` and in `RedoWalRecord`: whether it is to be redone. A page that is not there yet
is waited for. -/
def pageDue (file : RedoFile Body) : Option Bool :=
  match walRecordCheckVersion file.item.reuseVersion record.filePreVersion.toNat with
  | .noNeedToReplay => some false
  | .notReplayable => none
  | .replayable =>
    if file.readable record.pageId.blockId then
      match env.gate entry.recordEndPlsn (env.recordBody entry).pagePre
        (file.page record.pageId.blockId) with
      | .noNeedToReplay => some false
      | .notReplayable => none
      | .replayable => some true
    else none

/-- `RedoWalRecordByType` on the page of a file. -/
def writePage (file : RedoFile Body) : RedoFile Body :=
  { file with
    blocks := env.extendFile entry record file.blocks
    page := update file.page record.pageId.blockId
      (env.redoWalRecordByType entry record (file.page record.pageId.blockId)) }

/-- The redo of one page record. -/
def redoPage (file : RedoFile Body) : Option (RedoFile Body) :=
  (env.pageDue entry record file).map fun due =>
    if due then env.writePage entry record file else file

/-! ## Tablespace records -/

/-- The version in an item after a change that carries the version before. -/
def nextReuseVersion (reuseVersion preReuseVersion : ℕ) : ℕ :=
  if reuseVersion = preReuseVersion then reuseVersion + 1 else reuseVersion

/-- `WalRecordTbsCreateDataFile::Redo`: a file that is there already is kept. -/
def redoCreateDataFile (body : RedoWalRecordBody) (tablespaceId : ℕ) (file : RedoFile Body) :
    Option (RedoFile Body) :=
  if tablespaceId = invalidTablespaceId ∨ body.fileId = invalidDataFileId then none
  else some {
    item := ⟨true, nextReuseVersion file.item.reuseVersion body.preReuseVersion, body.fileMaxSize,
      body.extentSize, body.ddlXid, tablespaceId⟩
    blocks := some (max (file.blocks.getD 0) initBlockCount)
    page := if file.blocks = none then fun _ => env.zeroPage else file.page }

/-- `WalRecordTbsDropDataFile::Redo` for the file. A drop without a tablespace only deletes the
file. -/
def redoDropDataFile (body : RedoWalRecordBody) (tablespaceId : ℕ) (file : RedoFile Body) :
    Option (RedoFile Body) :=
  if body.fileId = invalidDataFileId ∨ tablespaceId ≠ invalidTablespaceId ∧
      (body.hwm < body.slotId ∨ maxTbsDatafileSlotCnt ≤ body.slotId) then none
  else some {
    item := ⟨false, nextReuseVersion file.item.reuseVersion body.preReuseVersion, 0, 0, invalidXid,
      invalidTablespaceId⟩
    blocks := none
    page := fun _ => env.zeroPage }

/-- `UpdateDropDataFile` for the tablespace of the file. -/
def removeFile (body : RedoWalRecordBody) (tablespaceId : ℕ)
    (tablespace : ℕ → ControlTablespaceItem) : ℕ → ControlTablespaceItem :=
  if tablespaceId ≠ invalidTablespaceId ∧ body.slotId < maxTbsDatafileSlotCnt then
    let item := tablespace tablespaceId
    update tablespace tablespaceId
      { item with fileIds := update item.fileIds body.slotId invalidDataFileId }
  else tablespace

/-- The redo of a record for a file or a page of it, and whether it drops the file. -/
def redoFile (file : RedoFile Body) : Option (RedoFile Body × Bool) :=
  let body := env.recordBody entry
  match record.type with
  | .tbsCreateDataFile =>
    match walRecordCheckVersion file.item.reuseVersion body.preReuseVersion with
    | .noNeedToReplay => some (file, false)
    | .notReplayable => none
    | .replayable => (env.redoCreateDataFile body record.tablespaceId file).map (·, false)
  | .tbsDropDataFile =>
    match walRecordCheckVersion file.item.reuseVersion body.preReuseVersion with
    | .noNeedToReplay => some (file, false)
    | .notReplayable => none
    | .replayable => (env.redoDropDataFile body record.tablespaceId file).map (·, true)
  | _ => (env.redoPage entry record file).map (·, false)

/-- The redo of a record for a tablespace. -/
def redoTablespace (item : ControlTablespaceItem) : Option ControlTablespaceItem :=
  let body := env.recordBody entry
  match walRecordCheckVersion item.reuseVersion body.preReuseVersion with
  | .noNeedToReplay => some item
  | .notReplayable => none
  | .replayable =>
    if record.tablespaceId = invalidTablespaceId then none
    else
      match record.type with
      | .tbsCreateTablespace =>
        some { item with
          used := true
          tbsMaxSize := body.tbsMaxSize
          ddlXid := body.ddlXid
          reuseVersion := nextReuseVersion item.reuseVersion body.preReuseVersion }
      | .tbsAddFileToTablespace =>
        if body.fileId = invalidDataFileId ∨ body.hwm < body.slotId ∨
            maxTbsDatafileSlotCnt ≤ body.slotId then none
        else some { item with
          fileIds := update item.fileIds body.slotId body.fileId
          hwm := body.hwm }
      | .tbsDropTablespace =>
        some { item with
          used := false
          tbsMaxSize := 0
          hwm := 0
          ddlXid := invalidXid
          reuseVersion := nextReuseVersion item.reuseVersion body.preReuseVersion }
      | .tbsAlterTablespace =>
        some { item with used := true, tbsMaxSize := body.tbsMaxSize, ddlXid := body.ddlXid }
      | _ => some item

/-! ## The redo of an entry of a worker -/

/-- What a record changes first. -/
inductive Target where
  | file (fileId : UInt16)
  | tablespace (tablespaceId : ℕ)
  | relmap
deriving DecidableEq, Repr

/-- What a record changes first: its page or file, its tablespace, or the map. -/
def target : Target :=
  match record.type with
  | .tbsCreateDataFile | .tbsDropDataFile => .file (env.recordBody entry).fileId
  | .tbsCreateTablespace | .tbsAddFileToTablespace | .tbsDropTablespace
  | .tbsAlterTablespace => .tablespace record.tablespaceId
  | .systableWriteBuiltinRelmap => .relmap
  | _ => .file record.pageId.fileId

/-- The redo of one entry by the worker it was handed to. -/
def redoEntry (data : RedoData Body Relmap) (entry : RedoWalRecordEntry) :
    Option (RedoData Body Relmap) :=
  match entry.walRecord with
  | none => some data
  | some record =>
    match env.target entry record with
    | .file fileId =>
      (env.redoFile entry record (data.file fileId)).map fun (file, dropped) =>
        { data with
          file := update data.file fileId file
          tablespace :=
            if dropped then
              removeFile (env.recordBody entry) record.tablespaceId data.tablespace
            else data.tablespace }
    | .tablespace tablespaceId =>
      (env.redoTablespace entry record (data.tablespace tablespaceId)).map fun item =>
        { data with tablespace := update data.tablespace tablespaceId item }
    | .relmap => some { data with relmap := env.redoSystableRecord entry data.relmap }

/-! ## Serial redo -/

/-- The page in the `i`-th turn of `WalRecordTbsInitDataPages::Redo` or
`WalRecordTbsInitBitmapPages::Redo`. -/
def initPageId (record : RedoWalRecord) (i : ℕ) : PageId :=
  ⟨record.pageId.fileId, record.pageId.blockId + UInt32.ofNat i⟩

/-- What the `i`-th turn writes to the page. -/
def initPage (i : ℕ) (page : RedoPage Body) : RedoPage Body :=
  let body := env.recordBody entry
  let lsn := redoLsn (body.preWalPointer i) env.walId entry.recordEndPlsn
  if record.type = .tbsInitMultipleDataPages then
    let fsmIndex : FsmIndex := ⟨body.fsmIndex.page, body.fsmIndex.slot + UInt16.ofNat i⟩
    ⟨lsn, env.initDataPage body.pageType (initPageId record i) fsmIndex page.body⟩
  else
    let dataPageId : PageId := ⟨body.dataPageId.fileId,
      body.dataPageId.blockId + UInt32.ofNat (i * (dfBitmapBitCnt * body.extentSize))⟩
    ⟨lsn, env.initBitmapPage (initPageId record i) dataPageId page.body⟩

/-- The `i`-th turn of `WalRecordTbsInitDataPages::Redo` or `WalRecordTbsInitBitmapPages::Redo`: a
page whose header does not fit is left as it is. -/
def redoInitPage (file : RedoFile Body) (i : ℕ) : Option (RedoFile Body) :=
  let blockId := (initPageId record i).blockId
  if file.readable blockId then
    if env.gate entry.recordEndPlsn ((env.recordBody entry).preWalPointer i)
        (file.page blockId) = .replayable then
      some { file with
        page := update file.page blockId
          (env.initPage entry record i (file.page blockId)) }
    else some file
  else none

/-- The first `count` turns. -/
def redoInitPages (count : ℕ) (file : RedoFile Body) : Option (RedoFile Body) :=
  (List.range count).foldlM (env.redoInitPage entry record) file

/-- The page types that the redo of a record of many pages takes. -/
def initPageTypeOk (type : WalType) (pageType : WalPageType) : Bool :=
  if type = .tbsInitMultipleDataPages then
    pageType = .heapPageType || pageType = .indexPageType
  else pageType = .tbsBitmapPageType

/-- `RedoSingleForTbs` of a record of many pages, with the pages it reads. -/
def redoSingleForPages
    (data : RedoData Body Relmap) : Option (RedoData Body Relmap × List PageId) :=
  let fileId := record.pageId.fileId
  match walRecordCheckVersion (data.file fileId).item.reuseVersion
    record.filePreVersion.toNat with
  | .noNeedToReplay => some (data, [])
  | .notReplayable => none
  | .replayable =>
    if initPageTypeOk record.type (env.recordBody entry).pageType then
      (env.redoInitPages entry record record.pageCount (data.file fileId)).map
        fun file => ({ data with file := update data.file fileId file },
          (List.range record.pageCount).map (initPageId record))
    else none

/-- `RedoSingle` of a barrier record: the page id and the file version are read from the bytes of
the barrier. On a primary the page is read and checked as for a page record; `RedoWalRecordByType`
does not know the type. -/
def redoSingleForBarrier (standby : Bool) (entry : RedoWalRecordEntry) (record : RedoWalRecord)
    (data : RedoData Body Relmap) : Option (RedoData Body Relmap × List PageId) :=
  let body := env.recordBody entry
  let file := data.file record.pageId.fileId
  match walRecordCheckVersion file.item.reuseVersion record.filePreVersion.toNat with
  | .noNeedToReplay => some (data, [])
  | .notReplayable => none
  | .replayable =>
    if standby then some (data, [])
    else if file.readable record.pageId.blockId then
      let versionInFile := (data.file body.headerFileId).item.reuseVersion
      match walRecordCheckVersion versionInFile body.headerFilePreVersion with
      | .noNeedToReplay => some (data, [record.pageId])
      | .notReplayable => none
      | .replayable =>
        if env.gate entry.recordEndPlsn body.pagePre (file.page record.pageId.blockId) =
            .notReplayable then none
        else some (data, [record.pageId])
    else none

/-- The pages that the redo of a page record reads. -/
def pagesRead (record : RedoWalRecord) (data : RedoData Body Relmap) : List PageId :=
  if (data.file record.pageId.fileId).item.reuseVersion = record.filePreVersion.toNat then
    [record.pageId]
  else []

/-- `WalRecovery::RedoSingle`, with the pages it reads. -/
def redoSingle (standby : Bool) (data : RedoData Body Relmap) (entry : RedoWalRecordEntry) :
    Option (RedoData Body Relmap × List PageId) :=
  match entry.walRecord with
  | none => some (data, [])
  | some record =>
    if record.type.isRedoableWalRecord = false then some (data, [])
    else if record.type.isWalRecordWithMultiPagesInfo then
      env.redoSingleForPages entry record data
    else if record.type.isWalRecordWithoutPageInfo then
      (env.redoEntry data entry).map (·, [])
    else if record.type = .barrierCsn then env.redoSingleForBarrier standby entry record data
    else (env.redoEntry data entry).map (·, pagesRead record data)

end RedoEnv

end DStore
